import LuaGlue.Proofs.Spelling.Cuts
import LuaGlue.Spelling.Pieces
import Mathlib.Data.List.Induction

/-!
Where a list inside a spelling is cut.

The `depth` of a text is what it opens more brackets than it closes, counting both kinds together. A comma parts
two pieces if the text before it has depth 0. In a balanced text these commas are those between the pieces of one
list that are balanced themselves and have no such comma left (`IsItem`):

    s        i n t ,   M a p < A ,   B > ,   b o o l
    depth    0 0 0 0 0 0 0 0 1 1 1 1 1 1 0 0 0 0 0 0
             int        Map<A, B>           bool

`piecesFrom` keeps the depth of what it has read. While it reads an item it finds no place to cut
(`IsItem.piecesFrom_append`), so a list of items falls apart at the commas it was joined with
(`splitTopLevel_joined`).
-/

namespace LuaGlue.Spelling

/-! ### Depth -/

/-- How many brackets are open after a text. -/
def depth : List Char → Int
  | [] => 0
  | c :: s => nesting c + depth s

theorem depth_append (s t : List Char) : depth (s ++ t) = depth s + depth t := by
  induction s with
  | nil => simp [depth]
  | cons c s ih =>
    rw [List.cons_append, depth, depth, ih]
    omega

theorem depth_eq_zero {s : List Char} (h : ∀ c ∈ s, nesting c = 0) : depth s = 0 := by
  induction s with
  | nil => rfl
  | cons c s ih =>
    obtain ⟨hc, hs⟩ := List.forall_mem_cons.1 h
    rw [depth, hc, ih hs, Int.add_zero]

theorem nesting_of_isBlank {c : Char} (h : Text.isBlank c = true) : nesting c = 0 := by
  have hfilled : ∀ b ∈ ['<', '(', '>', ')'], Text.isBlank b = false := by
    simp [Text.isBlank, Text.blankRanges]
  have hne : ∀ b ∈ ['<', '(', '>', ')'], c ≠ b := fun b hb heq => by
    rw [heq, hfilled b hb] at h
    cases h
  rw [nesting, if_neg, if_neg]
  all_goals
    rintro (rfl | rfl) <;> exact hne _ (by simp) rfl

/-- No bracket is closed that is not open, and none stays open. -/
structure IsBalanced (s : List Char) : Prop where
  sane : ∀ before after, s = before ++ after → 0 ≤ depth before
  closed : depth s = 0

/-- A comma with as many brackets closed as opened before it. -/
def HasTopComma (s : List Char) : Prop := ∃ before after, s = before ++ ',' :: after ∧ depth before = 0

/-- A balanced text without a comma outside its brackets. -/
structure IsItem (s : List Char) : Prop where
  balanced : IsBalanced s
  whole : ¬ HasTopComma s

theorem isBalanced_iff {s : List Char} :
    IsBalanced s ↔ (∀ n ∈ List.range (s.length + 1), 0 ≤ depth (s.take n)) ∧ depth s = 0 := by
  constructor
  · exact fun h => ⟨fun n _ => h.sane _ (s.drop n) (List.take_append_drop n s).symm, h.closed⟩
  · rintro ⟨hsane, hclosed⟩
    refine ⟨?_, hclosed⟩
    rintro before after rfl
    have := hsane before.length (List.mem_range.2 (by rw [List.length_append]; omega))
    rwa [List.take_left] at this

instance (s : List Char) : Decidable (IsBalanced s) := decidable_of_iff _ isBalanced_iff.symm

/-- A balanced text that is cut where its depth is 0 has balanced parts. -/
theorem IsBalanced.parts {s t : List Char} (h : IsBalanced (s ++ t)) (hs : depth s = 0) :
    IsBalanced s ∧ IsBalanced t := by
  refine ⟨⟨?_, hs⟩, ?_, ?_⟩
  · rintro before after rfl
    exact h.sane before (after ++ t) (List.append_assoc ..)
  · rintro before after rfl
    have := h.sane (s ++ before) after (List.append_assoc ..).symm
    rwa [depth_append, hs, Int.zero_add] at this
  · have := h.closed
    rwa [depth_append, hs, Int.zero_add] at this

/-- Where there is a comma outside all brackets, there is a first one. -/
theorem HasTopComma.exists_first {s : List Char} (h : HasTopComma s) :
    ∃ before after, s = before ++ ',' :: after ∧ depth before = 0 ∧ ¬ HasTopComma before := by
  obtain ⟨before, after, rfl, hdepth⟩ := h
  induction hlength : before.length using Nat.strongRecOn generalizing before after with
  | ind n ih =>
    by_cases hearlier : HasTopComma before
    · obtain ⟨front, back, rfl, hfront⟩ := hearlier
      rw [List.append_assoc, List.cons_append]
      exact ih front.length (by simp [← hlength]) front (back ++ ',' :: after) hfront rfl
    · exact ⟨before, after, rfl, hdepth, hearlier⟩

/-- A balanced text is a list of items. -/
theorem IsBalanced.exists_items {s : List Char} (h : IsBalanced s) :
    ∃ front last, s = [','].intercalate (front ++ [last]) ∧ ∀ piece ∈ front ++ [last], IsItem piece := by
  induction hlength : s.length using Nat.strongRecOn generalizing s with
  | ind n ih =>
    by_cases hcomma : HasTopComma s
    · obtain ⟨first, rest, rfl, hdepth, hwhole⟩ := hcomma.exists_first
      obtain ⟨hfirst, hbehind⟩ := h.parts hdepth
      have hrest : IsBalanced rest := (IsBalanced.parts (s := [',']) hbehind (by decide)).2
      obtain ⟨front, last, rfl, hitems⟩ := ih rest.length (by simp [← hlength]; omega) hrest rfl
      refine ⟨first :: front, last, ?_, List.forall_mem_cons.2 ⟨⟨hfirst, hwhole⟩, hitems⟩⟩
      rw [List.cons_append, List.intercalate_cons_of_ne_nil (by simp)]
      simp
    · exact ⟨[], s, by simp, by simpa using ⟨h, hcomma⟩⟩

/-! ### Items and their commas -/

theorem depth_joined {pieces : List (List Char)} (h : ∀ piece ∈ pieces, IsItem piece) :
    depth ([','].intercalate pieces) = 0 := by
  induction pieces with
  | nil => rfl
  | cons piece rest ih =>
    obtain ⟨hpiece, hrest⟩ := List.forall_mem_cons.1 h
    cases rest with
    | nil => rw [List.intercalate_singleton, hpiece.balanced.closed]
    | cons next rest =>
      rw [List.intercalate_cons_cons, depth_append, depth_append, hpiece.balanced.closed, ih hrest]
      decide

/-- In a list of items, the commas outside all brackets are those between two items. -/
theorem depth_eq_zero_iff_between {pieces : List (List Char)} (h : ∀ piece ∈ pieces, IsItem piece)
    {before after : List Char} (hsplit : [','].intercalate pieces = before ++ ',' :: after) :
    depth before = 0 ↔ ∃ front back, pieces = front ++ back ∧ front ≠ [] ∧ back ≠ []
      ∧ before = [','].intercalate front ∧ after = [','].intercalate back := by
  constructor
  · intro hdepth
    induction pieces generalizing before with
    | nil => simp at hsplit
    | cons piece rest ih =>
      obtain ⟨hpiece, hrest⟩ := List.forall_mem_cons.1 h
      rcases eq_or_ne rest [] with rfl | hne
      · rw [List.intercalate_singleton] at hsplit
        exact absurd ⟨before, after, hsplit, hdepth⟩ hpiece.whole
      rw [List.intercalate_cons_of_ne_nil hne, List.append_assoc, List.singleton_append,
        List.append_eq_append_iff] at hsplit
      obtain ⟨between, rfl, hbetween⟩ | ⟨inner, rfl, hinner⟩ := hsplit
      · cases between with
        | nil =>
          -- the comma behind the first item
          refine ⟨[piece], rest, rfl, by simp, hne, by simp, ?_⟩
          simpa using hbetween.symm
        | cons c between =>
          obtain ⟨rfl, hlater⟩ := List.cons.inj hbetween
          rw [depth_append, hpiece.balanced.closed, Int.zero_add] at hdepth
          obtain ⟨front, back, rfl, hfront, hback, rfl, rfl⟩ := ih hrest hlater (by simpa [depth, nesting] using hdepth)
          refine ⟨piece :: front, back, rfl, by simp, hback, ?_, rfl⟩
          rw [List.intercalate_cons_of_ne_nil hfront]
          simp
      · cases inner with
        | nil =>
          refine ⟨[before], rest, by simp, by simp, hne, by simp, ?_⟩
          simpa using hinner
        | cons c inner =>
          obtain ⟨rfl, -⟩ := List.cons.inj hinner
          exact absurd ⟨before, inner, rfl, hdepth⟩ hpiece.whole
  · rintro ⟨front, back, rfl, -, -, rfl, -⟩
    exact depth_joined fun piece hmem => h piece (List.mem_append_left _ hmem)

/-- White space around an item says nothing about its brackets and commas. -/
theorem IsItem.of_blanks {lead s trail : List Char} (hlead : ∀ c ∈ lead, Text.isBlank c = true)
    (htrail : ∀ c ∈ trail, Text.isBlank c = true) (h : IsItem (lead ++ (s ++ trail))) : IsItem s := by
  have hbefore : depth lead = 0 := depth_eq_zero fun c hc => nesting_of_isBlank (hlead c hc)
  have hbehind : depth trail = 0 := depth_eq_zero fun c hc => nesting_of_isBlank (htrail c hc)
  have hs : depth s = 0 := by
    have := h.balanced.closed
    rwa [depth_append, depth_append, hbefore, hbehind, Int.zero_add, Int.add_zero] at this
  refine ⟨((h.balanced.parts hbefore).2.parts hs).1, ?_⟩
  rintro ⟨before, after, rfl, hdepth⟩
  exact h.whole ⟨lead ++ before, after ++ trail, by simp, by rw [depth_append, hbefore, hdepth, Int.zero_add]⟩

theorem IsItem.trim {s : List Char} (h : IsItem s) : IsItem (Text.trim s) := by
  obtain ⟨lead, trail, heq, hlead, htrail⟩ := Text.exists_trim s
  rw [heq] at h
  exact h.of_blanks hlead htrail

/-! ### Reading a list -/

/-- A text is read up to its end if no comma in it comes where all brackets are closed. -/
theorem piecesFrom_append {d : Int} {s : List Char}
    (h : ∀ before after, s = before ++ ',' :: after → d + depth before ≠ 0) (current rest : List Char) :
    piecesFrom d current (s ++ rest) = piecesFrom (d + depth s) (current ++ s) rest := by
  induction s generalizing d current with
  | nil => rw [List.nil_append, List.append_nil, depth, Int.add_zero]
  | cons c s ih =>
    have hread : ¬ (c = ',' ∧ d = 0) := by
      rintro ⟨rfl, rfl⟩
      exact h [] s rfl rfl
    have hrest : ∀ before after, s = before ++ ',' :: after → d + nesting c + depth before ≠ 0 := by
      rintro before after rfl
      rw [Int.add_assoc]
      exact h (c :: before) after rfl
    rw [List.cons_append, piecesFrom, if_neg hread, ih hrest, depth, Int.add_assoc, List.append_assoc,
      List.singleton_append]

/-- There is no place to cut in an item, and none is opened. -/
theorem IsItem.piecesFrom_append {s : List Char} (h : IsItem s) (current rest : List Char) :
    piecesFrom 0 current (s ++ rest) = piecesFrom 0 (current ++ s) rest := by
  rw [Spelling.piecesFrom_append (fun before after hsplit hdepth => ?_), h.balanced.closed, Int.add_zero]
  exact h.whole ⟨before, after, hsplit, by rwa [Int.zero_add] at hdepth⟩

/-- A list of items is cut into these items, trimmed, and ends before a blank one. -/
theorem splitTopLevel_joined {front : List (List Char)} {last : List Char}
    (h : ∀ piece ∈ front ++ [last], IsItem piece) :
    splitTopLevel ([','].intercalate (front ++ [last]))
      = front.map Text.trim ++ if Text.trim last = [] then [] else [Text.trim last] := by
  induction front with
  | nil =>
    have hread := (h last (by simp)).piecesFrom_append [] []
    rw [List.append_nil] at hread
    rw [List.nil_append, List.intercalate_singleton, splitTopLevel, hread, piecesFrom]
    simp
  | cons piece front ih =>
    obtain ⟨hpiece, hrest⟩ := List.forall_mem_cons.1 h
    rw [List.cons_append, List.intercalate_cons_of_ne_nil (by simp), List.append_assoc, List.singleton_append,
      splitTopLevel, hpiece.piecesFrom_append, piecesFrom, if_pos ⟨rfl, rfl⟩]
    exact congrArg (Text.trim piece :: ·) (ih hrest)

/-- What comes back of a list of items are items, and nothing is left to trim. -/
theorem isItem_of_mem_splitTopLevel {front : List (List Char)} {last : List Char}
    (h : ∀ piece ∈ front ++ [last], IsItem piece) {piece : List Char}
    (hpiece : piece ∈ splitTopLevel ([','].intercalate (front ++ [last]))) :
    IsItem piece ∧ Text.trim piece = piece := by
  obtain ⟨given, hgiven, rfl⟩ : ∃ given ∈ front ++ [last], Text.trim given = piece := by
    rw [splitTopLevel_joined h, List.mem_append, List.mem_map] at hpiece
    obtain ⟨given, hgiven, rfl⟩ | hlast := hpiece
    · exact ⟨given, List.mem_append_left _ hgiven, rfl⟩
    · split at hlast
      · cases hlast
      · exact ⟨last, by simp, (List.mem_singleton.1 hlast).symm⟩
  exact ⟨(h given hgiven).trim, Text.trim_trim given⟩

/-- Items that are trimmed come back as they are, if the last one is not empty. -/
theorem splitTopLevel_of_trimmed {pieces : List (List Char)}
    (h : ∀ piece ∈ pieces, IsItem piece ∧ Text.trim piece = piece) (hlast : ∀ last ∈ pieces.getLast?, last ≠ []) :
    splitTopLevel ([','].intercalate pieces) = pieces := by
  rcases List.eq_nil_or_concat pieces with rfl | ⟨front, last, rfl⟩
  · rfl
  · rw [List.concat_eq_append] at h hlast ⊢
    have htrim : front.map Text.trim = front :=
      (List.map_congr_left fun piece hmem => (h piece (List.mem_append_left _ hmem)).2).trans (List.map_id front)
    rw [splitTopLevel_joined fun piece hmem => (h piece hmem).1, htrim, (h last (by simp)).2,
      if_neg (hlast last (by simp))]

/-- The pieces of a list, cut at its commas outside all brackets and nowhere else. -/
structure IsCut (s : List Char) (pieces : List (List Char)) : Prop where
  joined : s = [','].intercalate pieces
  between : ∀ before after, s = before ++ ',' :: after → (depth before = 0
    ↔ ∃ front back, pieces = front ++ back ∧ front ≠ [] ∧ back ≠ []
      ∧ before = [','].intercalate front ∧ after = [','].intercalate back)

/-- CORRECT: a balanced text is cut at the commas that stand outside all brackets, and only there. What is between
them comes back in order and trimmed, but for a last piece that is blank. Each piece is balanced and has no such
comma, and the pieces are found again after they are joined with commas, if the last one is not empty. -/
theorem top_level_split_exact {s : List Char} (h : IsBalanced s) :
    (∃ front last, IsCut s (front ++ [last])
        ∧ splitTopLevel s = front.map Text.trim ++ if Text.trim last = [] then [] else [Text.trim last])
      ∧ (∀ piece ∈ splitTopLevel s, IsBalanced piece ∧ ¬ HasTopComma piece)
      ∧ ((∀ last ∈ (splitTopLevel s).getLast?, last ≠ []) →
        splitTopLevel ([','].intercalate (splitTopLevel s)) = splitTopLevel s) := by
  obtain ⟨front, last, rfl, hitems⟩ := h.exists_items
  refine ⟨⟨front, last, ⟨rfl, fun before after => depth_eq_zero_iff_between hitems⟩, splitTopLevel_joined hitems⟩,
    fun piece hpiece => ?_, fun hlast => ?_⟩
  · obtain ⟨hitem, -⟩ := isItem_of_mem_splitTopLevel hitems hpiece
    exact ⟨hitem.balanced, hitem.whole⟩
  · exact splitTopLevel_of_trimmed (fun piece => isItem_of_mem_splitTopLevel hitems) hlast

/-- Commas inside two kinds of brackets. -/
def nested : List Char := "int, std::function<void(int, int)>, Map<A, B>".toList

theorem nested_split : IsBalanced nested
    ∧ splitTopLevel nested
      = ["int".toList, "std::function<void(int, int)>".toList, "Map<A, B>".toList]
    ∧ splitTopLevel ([','].intercalate (splitTopLevel nested)) = splitTopLevel nested := by
  have hbalanced : IsBalanced nested := by decide +kernel
  have hsplit : splitTopLevel nested
      = ["int".toList, "std::function<void(int, int)>".toList, "Map<A, B>".toList] := by decide
  refine ⟨hbalanced, hsplit, (top_level_split_exact hbalanced).2.2 ?_⟩
  rw [hsplit]
  decide

end LuaGlue.Spelling
