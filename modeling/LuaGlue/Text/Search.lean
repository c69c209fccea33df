/-!
Looking for a pattern in a text.

`stripFront?` and `stripBack?` take a pattern off one end, `breakFirst?` cuts at the leftmost
occurrence of a pattern and gives what stands before and after it. Each returns parts of the text it
was given, so none is longer than that text.
-/

namespace LuaGlue.Text

/-- What follows the pattern, when the text begins with it. -/
def stripFront? : List Char → List Char → Option (List Char)
  | [], s => some s
  | _ :: _, [] => none
  | p :: ps, c :: s => if p = c then stripFront? ps s else none

/-- What precedes the pattern, when the text ends in it. -/
def stripBack? (pattern s : List Char) : Option (List Char) :=
  (stripFront? pattern.reverse s.reverse).map List.reverse

/-- The text cut at the leftmost occurrence of the pattern: what is before it and what is after. -/
def breakFirst? (pattern : List Char) : List Char → Option (List Char × List Char)
  | [] => if pattern = [] then some ([], []) else none
  | c :: s =>
    match stripFront? pattern (c :: s) with
    | some rest => some ([], rest)
    | none => (breakFirst? pattern s).map fun (before, after) => (c :: before, after)

/-- The text cut at the first character that the test holds of. -/
def breakAt? (test : Char → Bool) : List Char → Option (List Char × List Char)
  | [] => none
  | c :: s => if test c then some ([], s) else
    (breakAt? test s).map fun (before, after) => (c :: before, after)

/-- The text cut at the last character that the test holds of. -/
def breakAtLast? (test : Char → Bool) : List Char → Option (List Char × List Char)
  | [] => none
  | c :: s =>
    match breakAtLast? test s with
    | some (before, after) => some (c :: before, after)
    | none => if test c then some ([], s) else none

theorem stripFront?_eq_some {pattern s rest : List Char} (h : stripFront? pattern s = some rest) :
    s = pattern ++ rest := by
  fun_induction stripFront? pattern s with
  | case1 => simpa using h
  | case2 => simp at h
  | case3 p ps s ih => simp [ih h]
  | case4 => simp at h

theorem stripBack?_eq_some {pattern s rest : List Char} (h : stripBack? pattern s = some rest) :
    s = rest ++ pattern := by
  obtain ⟨r, hr, rfl⟩ := Option.map_eq_some_iff.1 h
  have := congrArg List.reverse (stripFront?_eq_some hr)
  simpa using this

theorem breakFirst?_eq_some {pattern s before after : List Char}
    (h : breakFirst? pattern s = some (before, after)) : s = before ++ pattern ++ after := by
  induction s generalizing before with
  | nil =>
    rw [breakFirst?] at h
    split at h <;> simp_all
  | cons c s ih =>
    rw [breakFirst?] at h
    split at h
    · next rest hrest =>
      have := stripFront?_eq_some hrest
      simp_all
    · next hnone =>
      obtain ⟨⟨b, a⟩, hb, he⟩ := Option.map_eq_some_iff.1 h
      simp only [Prod.mk.injEq] at he
      obtain ⟨rfl, rfl⟩ := he
      simp [ih hb]

theorem breakAt?_eq_some {test : Char → Bool} {s before after : List Char}
    (h : breakAt? test s = some (before, after)) :
    ∃ c, test c = true ∧ s = before ++ c :: after := by
  induction s generalizing before with
  | nil => simp [breakAt?] at h
  | cons c s ih =>
    rw [breakAt?] at h
    split at h
    · next hc =>
      simp only [Option.some.injEq, Prod.mk.injEq] at h
      exact ⟨c, hc, by simp [h.1.symm, h.2]⟩
    · obtain ⟨⟨b, a⟩, hb, he⟩ := Option.map_eq_some_iff.1 h
      simp only [Prod.mk.injEq] at he
      obtain ⟨rfl, rfl⟩ := he
      obtain ⟨d, hd, hs⟩ := ih hb
      exact ⟨d, hd, by simp [hs]⟩

theorem breakAtLast?_eq_some {test : Char → Bool} {s before after : List Char}
    (h : breakAtLast? test s = some (before, after)) :
    ∃ c, test c = true ∧ s = before ++ c :: after := by
  induction s generalizing before with
  | nil => simp [breakAtLast?] at h
  | cons c s ih =>
    rw [breakAtLast?] at h
    split at h
    · next b a hb =>
      simp only [Option.some.injEq, Prod.mk.injEq] at h
      obtain ⟨rfl, rfl⟩ := h
      obtain ⟨d, hd, hs⟩ := ih hb
      exact ⟨d, hd, by simp [hs]⟩
    · split at h
      · next hc =>
        simp only [Option.some.injEq, Prod.mk.injEq] at h
        exact ⟨c, hc, by simp [h.1.symm, h.2]⟩
      · simp at h

end LuaGlue.Text
