import LuaGlue.Text.Blank
import LuaGlue.Text.Search

/-!
Cutting a text where it was put together.

A text that is put together from parts is cut at the same places again, if no part has in it what is looked for.

    (int32_t  (*)  (float))     breakFirst? "(*)"  gives back  int32_t  and  (float)
-/

namespace LuaGlue.Text

/-- What stands before the first character that a test holds of. -/
theorem forall_of_breakAt? {test : Char → Bool} {s before after : List Char}
    (h : breakAt? test s = some (before, after)) : ∀ c ∈ before, test c = false := by
  induction s generalizing before with
  | nil => cases h
  | cons c s ih =>
    rw [breakAt?] at h
    split at h
    · cases h
      exact List.forall_mem_nil _
    · next hc =>
      obtain ⟨⟨front, back⟩, hrest, heq⟩ := Option.map_eq_some_iff.1 h
      cases heq
      exact List.forall_mem_cons.2 ⟨by simpa using hc, ih hrest⟩

section Cuts

variable {test : Char → Bool} {a b : List Char} {x : Char}

/-- The first character that the test holds of is the one behind a part that it does not hold in. -/
theorem breakAt?_append (ha : ∀ c ∈ a, test c = false) (hx : test x = true) (b : List Char) :
    breakAt? test (a ++ x :: b) = some (a, b) := by
  induction a with
  | nil => rw [List.nil_append, breakAt?, if_pos hx]
  | cons c a ih =>
    obtain ⟨hc, hrest⟩ := List.forall_mem_cons.1 ha
    rw [List.cons_append, breakAt?, if_neg (by simp [hc]), ih hrest]
    rfl

theorem breakAt?_append_of_not_mem (ha : x ∉ a) (b : List Char) : breakAt? (· = x) (a ++ x :: b) = some (a, b) := by
  have hfree : ∀ c ∈ a, decide (c = x) = false := fun c hc => decide_eq_false fun heq => ha (heq ▸ hc)
  exact breakAt?_append hfree (decide_eq_true rfl) b

theorem breakAtLast?_eq_none (hb : ∀ c ∈ b, test c = false) : breakAtLast? test b = none := by
  induction b with
  | nil => rfl
  | cons c b ih =>
    obtain ⟨hc, hrest⟩ := List.forall_mem_cons.1 hb
    rw [breakAtLast?, ih hrest, if_neg (by simp [hc])]

/-- The last character that the test holds of is the one before a part that it does not hold in. -/
theorem breakAtLast?_append (hx : test x = true) (hb : ∀ c ∈ b, test c = false) (a : List Char) :
    breakAtLast? test (a ++ x :: b) = some (a, b) := by
  induction a with
  | nil => rw [List.nil_append, breakAtLast?, breakAtLast?_eq_none hb, if_pos hx]
  | cons c a ih => rw [List.cons_append, breakAtLast?, ih]

end Cuts

theorem stripFront?_append (pattern rest : List Char) : stripFront? pattern (pattern ++ rest) = some rest := by
  induction pattern with
  | nil => cases rest <;> rfl
  | cons p pattern ih => rw [List.cons_append, stripFront?, if_pos rfl, ih]

theorem stripFront?_eq_none {pattern text : List Char} {c : Char} (hc : c ∈ pattern) (htext : c ∉ text) :
    stripFront? pattern text = none := by
  cases h : stripFront? pattern text with
  | none => rfl
  | some rest =>
    rw [stripFront?_eq_some h] at htext
    exact absurd (List.mem_append_left _ hc) htext

/-- A text does not begin with a pattern if they differ where the first of some characters comes. -/
theorem stripFront?_eq_none_of_ne {test : Char → Bool} {p s : List Char} {x y : Char}
    (hp : ∀ c ∈ p, test c = false) (hs : ∀ c ∈ s, test c = false) (hx : test x = true) (hy : test y = true)
    (hne : x ≠ y) (ps ss : List Char) : stripFront? (p ++ x :: ps) (s ++ y :: ss) = none := by
  cases h : stripFront? (p ++ x :: ps) (s ++ y :: ss) with
  | none => rfl
  | some rest =>
    have htext : s ++ y :: ss = p ++ x :: (ps ++ rest) := by
      simpa using stripFront?_eq_some h
    have hcut := congrArg (breakAt? test) htext
    rw [breakAt?_append hs hy, breakAt?_append hp hx] at hcut
    obtain ⟨rfl, -⟩ := Prod.mk.inj (Option.some.inj hcut)
    exact absurd (List.cons.inj (List.append_cancel_left htext)).1.symm hne

theorem stripBack?_append (text pattern : List Char) : stripBack? pattern (text ++ pattern) = some text := by
  rw [stripBack?, List.reverse_append, stripFront?_append]
  simp

theorem stripBack?_eq_none {pattern text : List Char} {c : Char} (hc : c ∈ pattern) (htext : c ∉ text) :
    stripBack? pattern text = none := by
  rw [stripBack?, stripFront?_eq_none (List.mem_reverse.2 hc) (by simpa using htext)]
  rfl

theorem stripBack?_concat_of_ne {pattern text : List Char} {p c : Char} (h : p ≠ c) :
    stripBack? (pattern ++ [p]) (text ++ [c]) = none := by
  rw [stripBack?, List.reverse_append, List.reverse_append, List.reverse_singleton, List.reverse_singleton,
    List.singleton_append, List.singleton_append, stripFront?, if_neg h]
  rfl

/-- The leftmost occurrence of a pattern is behind a part that does not have its first character. -/
theorem breakFirst?_append {p : Char} {before : List Char} (h : p ∉ before) (pattern after : List Char) :
    breakFirst? (p :: pattern) (before ++ p :: pattern ++ after) = some (before, after) := by
  induction before with
  | nil =>
    rw [List.nil_append, List.cons_append, breakFirst?, ← List.cons_append, stripFront?_append]
  | cons c before ih =>
    rw [List.mem_cons, not_or] at h
    rw [List.cons_append, List.cons_append, breakFirst?, stripFront?, if_neg h.1]
    simp only [ih h.2]
    rfl

section Ending

variable {stem : List Char} {c : Char} (hc : c ∉ stem)

include hc

/-- A pattern whose last character is in it but once stands at the front of a text only if it does before its next
occurrence. -/
theorem isPrefix_of_append {front after rest : List Char} (hfront : front ≠ [])
    (h : front ++ (stem ++ [c]) ++ after = stem ++ [c] ++ rest) : stem ++ [c] <+: front := by
  have hcut := congrArg (breakAt? (· = c)) h
  rw [List.append_assoc stem, List.singleton_append, breakAt?_append_of_not_mem hc] at hcut
  by_cases hmem : c ∈ front
  · obtain ⟨x, y, rfl, hx⟩ := List.eq_append_cons_of_mem hmem
    simp only [List.append_assoc, List.cons_append] at hcut
    rw [breakAt?_append_of_not_mem hx] at hcut
    cases hcut
    exact ⟨y, by simp⟩
  · have hboth : c ∉ front ++ stem := by simp [hmem, hc]
    rw [← List.append_assoc front, List.append_assoc (front ++ stem), List.singleton_append,
      breakAt?_append_of_not_mem hboth] at hcut
    have heq : front ++ stem = stem := (Prod.mk.inj (Option.some.inj hcut)).1
    exact absurd (List.append_left_eq_self.1 heq) hfront

/-- The leftmost occurrence of such a pattern is behind a part that does not have it in it. -/
theorem breakFirst?_append_of_not_infix {before : List Char} (h : ¬ stem ++ [c] <:+: before) (after : List Char) :
    breakFirst? (stem ++ [c]) (before ++ (stem ++ [c]) ++ after) = some (before, after) := by
  induction before with
  | nil =>
    cases stem with
    | nil => exact breakFirst?_append List.not_mem_nil [] after
    | cons d stem => exact breakFirst?_append List.not_mem_nil (stem ++ [c]) after
  | cons d before ih =>
    have hnone : stripFront? (stem ++ [c]) (d :: before ++ (stem ++ [c]) ++ after) = none := by
      cases hfound : stripFront? (stem ++ [c]) (d :: before ++ (stem ++ [c]) ++ after) with
      | none => rfl
      | some rest =>
        have hearly := isPrefix_of_append hc (List.cons_ne_nil d before) (stripFront?_eq_some hfound)
        exact absurd hearly.isInfix h
    rw [List.cons_append, List.cons_append] at hnone ⊢
    rw [breakFirst?, hnone]
    simp only [ih fun hlate => h (List.infix_cons hlate)]
    rfl

end Ending

theorem forall_mem_intercalate {p : Char → Prop} {separator : Char} (hseparator : p separator)
    (words : List (List Char)) :
    (∀ c ∈ [separator].intercalate words, p c) ↔ ∀ word ∈ words, ∀ c ∈ word, p c := by
  induction words with
  | nil => simp
  | cons word rest ih =>
    cases rest with
    | nil => simp
    | cons next rest =>
      rw [List.intercalate_cons_cons, List.forall_mem_append, List.forall_mem_append, List.forall_mem_singleton, ih,
        @List.forall_mem_cons _ _ word, and_iff_left hseparator]

/-! ### Texts without white space at their ends -/

/-- Has the text no white space at either end? -/
def IsSolid (s : List Char) : Prop :=
  (∀ c ∈ s.head?, isBlank c = false) ∧ ∀ c ∈ s.getLast?, isBlank c = false

theorem trimStart_append {s : List Char} (hs : s ≠ []) (h : IsSolid s) (rest : List Char) :
    trimStart (s ++ rest) = s ++ rest := by
  obtain ⟨c, s, rfl⟩ := List.exists_cons_of_ne_nil hs
  rw [trimStart, List.cons_append, List.dropWhile_cons_of_neg (by simp [h.1 c rfl])]

theorem trimEnd_append {s : List Char} (hs : s ≠ []) (h : IsSolid s) (front : List Char) :
    trimEnd (front ++ s) = front ++ s := by
  obtain ⟨s, c, rfl⟩ := (List.eq_nil_or_concat s).resolve_left hs
  rw [trimEnd, List.concat_eq_append, ← List.append_assoc, List.reverse_append, List.reverse_singleton,
    List.singleton_append, List.dropWhile_cons_of_neg (by simp [h.2 c (by simp)])]
  simp

theorem trim_append {s t : List Char} (hs : s ≠ []) (ht : t ≠ []) (hsolid : IsSolid s) (hsolid' : IsSolid t)
    (between : List Char) : trim (s ++ (between ++ t)) = s ++ (between ++ t) := by
  rw [trim, trimStart_append hs hsolid, ← List.append_assoc, trimEnd_append ht hsolid']

theorem trim_of_isSolid {s : List Char} (h : IsSolid s) : trim s = s := by
  by_cases hs : s = []
  · subst hs
    rfl
  · have hstart := trimStart_append hs h []
    rw [List.append_nil] at hstart
    rw [trim, hstart]
    exact trimEnd_append hs h []

theorem trimEnd_append_blank {trail : List Char} (h : ∀ c ∈ trail, isBlank c = true) (s : List Char) :
    trimEnd (s ++ trail) = trimEnd s := by
  rw [trimEnd, trimEnd, List.reverse_append, List.dropWhile_append_of_pos (by simpa using h)]

theorem trim_blank_append {lead : List Char} (h : ∀ c ∈ lead, isBlank c = true) (s : List Char) :
    trim (lead ++ s) = trim s := by
  rw [trim, trim, trimStart, List.dropWhile_append_of_pos h]
  rfl

/-- What is trimmed is white space, at either end. -/
theorem exists_trim (s : List Char) : ∃ lead trail, s = lead ++ (trim s ++ trail)
    ∧ (∀ c ∈ lead, isBlank c = true) ∧ ∀ c ∈ trail, isBlank c = true := by
  refine ⟨s.takeWhile isBlank, ((trimStart s).reverse.takeWhile isBlank).reverse, ?_, ?_, ?_⟩
  · have htrail : trimStart s = trim s ++ ((trimStart s).reverse.takeWhile isBlank).reverse := by
      rw [trim, trimEnd, ← List.reverse_append, List.takeWhile_append_dropWhile, List.reverse_reverse]
    rw [← htrail, trimStart, List.takeWhile_append_dropWhile]
  · exact fun c hc => List.all_eq_true.1 List.all_takeWhile c hc
  · exact fun c hc => List.all_eq_true.1 List.all_takeWhile c (List.mem_reverse.1 hc)

theorem isPrefix_trimEnd (s : List Char) : trimEnd s <+: s := by
  rw [trimEnd, ← List.reverse_suffix, List.reverse_reverse]
  exact List.dropWhile_suffix isBlank

theorem isSolid_trim (s : List Char) : IsSolid (trim s) := by
  have hstart : ∀ c ∈ (trimStart s).head?, isBlank c = false := fun c hc => by
    have := List.head?_dropWhile_not isBlank s
    rw [← trimStart, Option.mem_def.1 hc] at this
    exact this
  constructor
  · intro c hc
    obtain ⟨rest, heq⟩ : trim s <+: trimStart s := isPrefix_trimEnd (trimStart s)
    refine hstart c ?_
    rw [← heq, List.head?_append, Option.mem_def.1 hc]
    rfl
  · intro c hc
    rw [trim, trimEnd, List.getLast?_reverse] at hc
    have := List.head?_dropWhile_not isBlank (trimStart s).reverse
    rw [Option.mem_def.1 hc] at this
    exact this

theorem trim_trim (s : List Char) : trim (trim s) = trim s := trim_of_isSolid (isSolid_trim s)

section Trim

variable {c : Char} (hc : isBlank c = false) {s : List Char}

include hc

theorem mem_dropWhile_isBlank : c ∈ s.dropWhile isBlank ↔ c ∈ s := by
  refine ⟨fun h => (List.dropWhile_sublist _).mem h, fun h => ?_⟩
  rw [← List.takeWhile_append_dropWhile (p := isBlank) (l := s), List.mem_append] at h
  exact h.resolve_left fun htaken => by simp [List.all_eq_true.1 List.all_takeWhile c htaken] at hc

/-- Only white space is trimmed. -/
theorem mem_trimStart : c ∈ trimStart s ↔ c ∈ s := mem_dropWhile_isBlank hc

theorem mem_trimEnd : c ∈ trimEnd s ↔ c ∈ s := by
  rw [trimEnd, List.mem_reverse, mem_dropWhile_isBlank hc, List.mem_reverse]

theorem mem_trim : c ∈ trim s ↔ c ∈ s := (mem_trimEnd hc).trans (mem_trimStart hc)

end Trim

end LuaGlue.Text
