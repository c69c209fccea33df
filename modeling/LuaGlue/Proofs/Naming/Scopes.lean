import LuaGlue.Scope

/-!
When a qualified name can be taken apart again.

A text is broken at its rightmost separator, so the scope and the name come back from `scope::name` if
the scope is in its one spelling and the name holds no separator, not even together with the colons in
front of it. `Legible` says this of a scope and a name. Whatever `splitQualified` gives is legible, and
two legible pairs with one qualified name are the same pair.

    ::A::B ─splitQualified─▶ (::A, B) ─qualify─▶ ::A::B        B  ─▶ ("", B) ─▶ ::B
-/

namespace LuaGlue.Scope

/-! ### Pieces between separators -/

theorem startsScope_eq_true {text : List Char} (h : startsScope text = true) :
    ∃ rest, text = ':' :: ':' :: rest := by
  unfold startsScope at h
  split at h
  · exact ⟨_, rfl⟩
  · cases h

theorem startsScope_cons {c : Char} {rest : List Char} :
    startsScope (c :: rest) = true ↔ c = ':' ∧ rest.head? = some ':' := by
  constructor
  · intro h
    obtain ⟨tail, heq⟩ := startsScope_eq_true h
    cases heq
    exact ⟨rfl, rfl⟩
  · rintro ⟨rfl, hhead⟩
    obtain ⟨tail, rfl⟩ := List.head?_eq_some_iff.1 hhead
    rfl

theorem segments_ne_nil (text : List Char) : segments text ≠ [] := by
  fun_cases segments text <;> simp_all

/-- A character that begins no separator belongs to the first piece. -/
theorem segments_cons {c : Char} {rest : List Char} (h : startsScope (c :: rest) = false) :
    segments (c :: rest) = (segments rest).modifyHead (c :: ·) := by
  have hsep : ∀ tail, c = ':' → rest = ':' :: tail → False := by
    rintro tail rfl rfl
    cases h
  rw [segments.eq_3 c rest hsep]
  cases hrest : segments rest with
  | nil => exact absurd hrest (segments_ne_nil rest)
  | cons piece pieces => rfl

/-- Does the text hold no separator? -/
def Unbroken (text : List Char) : Prop := segments text = [text]

theorem unbroken_cons {c : Char} {rest : List Char} :
    Unbroken (c :: rest) ↔ startsScope (c :: rest) = false ∧ Unbroken rest := by
  unfold Unbroken
  cases hstarts : startsScope (c :: rest) with
  | true =>
    obtain ⟨tail, heq⟩ := startsScope_eq_true hstarts
    cases heq
    simp [segments]
  | false =>
    rw [segments_cons hstarts]
    cases hrest : segments rest with
    | nil => exact absurd hrest (segments_ne_nil rest)
    | cons piece pieces => simp

/-- A piece and the separator after it are taken off the front, unless the piece and a colon make up a
separator. -/
theorem segments_append {piece : List Char} (h : Unbroken (piece ++ [':'])) (rest : List Char) :
    segments (piece ++ ':' :: ':' :: rest) = piece :: segments rest := by
  induction piece with
  | nil => rfl
  | cons c piece ih =>
    rw [List.cons_append] at h
    obtain ⟨hstarts, hpiece⟩ := unbroken_cons.1 h
    have hhead : (piece ++ ':' :: ':' :: rest).head? = (piece ++ [':']).head? := by cases piece <;> rfl
    have hstarts' : startsScope (c :: (piece ++ ':' :: ':' :: rest)) = false := by
      rw [Bool.eq_false_iff, Ne, startsScope_cons, hhead, ← startsScope_cons, hstarts]
      exact Bool.false_ne_true
    rw [List.cons_append, segments_cons hstarts', ih hpiece]
    rfl

/-! ### Spelling a scope anew -/

/-- Texts that stay apart when they are joined by separators. -/
def Joinable : List (List Char) → Prop
  | [] => True
  | [piece] => Unbroken piece
  | piece :: rest => Unbroken (piece ++ [':']) ∧ Joinable rest

theorem unbroken_of_append {a b : List Char} (h : Unbroken (a ++ b)) : Unbroken a := by
  induction a with
  | nil => rfl
  | cons c a ih =>
    obtain ⟨hstarts, hrest⟩ := unbroken_cons.1 h
    refine unbroken_cons.2 ⟨?_, ih hrest⟩
    rw [Bool.eq_false_iff, Ne, startsScope_cons] at hstarts ⊢
    rintro ⟨hc, hhead⟩
    obtain ⟨tail, rfl⟩ := List.head?_eq_some_iff.1 hhead
    exact hstarts ⟨hc, rfl⟩

theorem joinable_cons {piece : List Char} {rest : List (List Char)} (h : Unbroken (piece ++ [':']))
    (hrest : Joinable rest) : Joinable (piece :: rest) := by
  cases rest with
  | nil => exact unbroken_of_append h
  | cons next rest => exact ⟨h, hrest⟩

/-- The text is its first piece, or goes on behind it with a separator. -/
theorem eq_of_segments {text piece : List Char} {pieces : List (List Char)}
    (h : segments text = piece :: pieces) :
    (pieces = [] ∧ text = piece) ∨ (pieces ≠ [] ∧ ∃ tail, text = piece ++ ':' :: ':' :: tail) := by
  induction text generalizing piece with
  | nil =>
    cases h
    exact .inl ⟨rfl, rfl⟩
  | cons c rest ih =>
    cases hstarts : startsScope (c :: rest) with
    | true =>
      obtain ⟨tail, heq⟩ := startsScope_eq_true hstarts
      cases heq
      cases h
      exact .inr ⟨segments_ne_nil tail, tail, rfl⟩
    | false =>
      rw [segments_cons hstarts] at h
      cases hrest : segments rest with
      | nil => exact absurd hrest (segments_ne_nil rest)
      | cons first others =>
        rw [hrest] at h
        cases h
        rcases ih hrest with ⟨hnone, rfl⟩ | ⟨hsome, tail, rfl⟩
        · exact .inl ⟨hnone, rfl⟩
        · exact .inr ⟨hsome, tail, rfl⟩

/-- Pieces stay apart. -/
theorem joinable_segments (text : List Char) : Joinable (segments text) := by
  induction text using segments.induct with
  | case1 => rfl
  | case2 rest ih => exact joinable_cons rfl ih
  | case3 c rest _ hnil => exact absurd hnil (segments_ne_nil rest)
  | case4 c rest hsep first others hrest ih =>
    have hstarts : startsScope (c :: rest) = false := by
      rw [Bool.eq_false_iff, Ne, startsScope_cons]
      rintro ⟨rfl, hhead⟩
      obtain ⟨tail, rfl⟩ := List.head?_eq_some_iff.1 hhead
      exact hsep tail rfl rfl
    rw [segments_cons hstarts]
    rw [hrest] at ih ⊢
    -- the first piece goes on with what the text goes on with, so no separator comes about
    rcases eq_of_segments hrest with ⟨rfl, rfl⟩ | ⟨hsome, tail, rfl⟩
    · exact unbroken_cons.2 ⟨hstarts, ih⟩
    · obtain ⟨next, others, rfl⟩ := List.exists_cons_of_ne_nil hsome
      have hhead : (first ++ [':']).head? = (first ++ ':' :: ':' :: tail).head? := by cases first <;> rfl
      refine joinable_cons (unbroken_cons.2 ⟨?_, ih.1⟩) ih.2
      rw [Bool.eq_false_iff, Ne, startsScope_cons] at hstarts ⊢
      rwa [← hhead] at hstarts

theorem Joinable.filter {pieces : List (List Char)} (h : Joinable pieces) (p : List Char → Bool) :
    Joinable (pieces.filter p) := by
  induction pieces with
  | nil => trivial
  | cons piece rest ih =>
    cases rest with
    | nil =>
      rw [List.filter_cons]
      split
      · exact h
      · trivial
    | cons next rest =>
      rw [List.filter_cons]
      split
      · exact joinable_cons h.1 (ih h.2)
      · exact ih h.2

/-- The scope made of pieces, as characters. -/
def joined (pieces : List (List Char)) : List Char := pieces.flatMap fun piece => ':' :: ':' :: piece

theorem toList_ofParts (pieces : List (List Char)) :
    (ofParts (pieces.map String.ofList)).toList = joined pieces := by
  induction pieces with
  | nil => rfl
  | cons piece rest ih =>
    rw [List.map_cons, ofParts, List.map_cons, String.join_cons, ← ofParts, String.toList_append, ih]
    simp [joined]

theorem segments_joined {pieces : List (List Char)} (h : Joinable pieces) :
    segments (joined pieces) = [] :: pieces := by
  induction pieces with
  | nil => rfl
  | cons piece rest ih =>
    cases rest with
    | nil =>
      have hpiece : Unbroken piece := h
      rw [joined, List.flatMap_cons, List.flatMap_nil, List.append_nil, segments, hpiece]
    | cons next rest =>
      have hrest := ih h.2
      rw [joined, List.flatMap_cons, ← joined, List.cons_append, List.cons_append, segments]
      rw [joined, List.flatMap_cons] at hrest ⊢
      rw [List.cons_append, List.cons_append, segments] at hrest
      rw [List.cons_append, List.cons_append, segments_append h.1, (List.cons.inj hrest).2]

theorem parts_normalize (scope : String) : parts (normalize scope) = parts scope := by
  have hjoinable := (joinable_segments scope.toList).filter fun piece => !piece.isEmpty
  unfold normalize
  rw [parts, parts, toList_ofParts, segments_joined hjoinable]
  simp

/-- Is the scope in its one spelling? -/
def IsNormal (scope : String) : Prop := normalize scope = scope

theorem isNormal_normalize (scope : String) : IsNormal (normalize scope) := by
  rw [IsNormal, normalize, parts_normalize]
  rfl

theorem isNormal_empty : IsNormal "" := rfl

/-! ### The rightmost separator -/

theorem breakLast?_eq_some {text before after : List Char} (h : breakLast? text = some (before, after)) :
    text = before ++ ':' :: ':' :: after ∧ breakLast? (':' :: after) = none := by
  induction text generalizing before with
  | nil => cases h
  | cons c rest ih =>
    rw [breakLast?] at h
    split at h
    · next front back hrest =>
      cases h
      obtain ⟨rfl, hlast⟩ := ih hrest
      exact ⟨rfl, hlast⟩
    · next hrest =>
      split at h
      · next hstarts =>
        obtain ⟨tail, heq⟩ := startsScope_eq_true hstarts
        cases heq
        cases h
        exact ⟨rfl, hrest⟩
      · cases h

/-- A separator is the rightmost one when none begins behind its first colon. -/
theorem breakLast?_append {after : List Char} (h : breakLast? (':' :: after) = none) (before : List Char) :
    breakLast? (before ++ ':' :: ':' :: after) = some (before, after) := by
  induction before with
  | nil => rw [List.nil_append, breakLast?, h]; rfl
  | cons c before ih => rw [List.cons_append, breakLast?, ih]

theorem breakLast?_of_colonFree {text : List Char} (h : ':' ∉ text) : breakLast? text = none := by
  induction text with
  | nil => rfl
  | cons c rest ih =>
    rw [List.mem_cons, not_or] at h
    obtain ⟨hc, hrest⟩ := h
    have hstarts : ¬ startsScope (c :: rest) = true := fun hstarts => hc (startsScope_cons.1 hstarts).1.symm
    rw [breakLast?, ih hrest, if_neg hstarts]

theorem breakLast?_colon_cons {text : List Char} (h : ':' ∉ text) : breakLast? (':' :: text) = none := by
  have hstarts : ¬ startsScope (':' :: text) = true := fun hstarts =>
    h (List.mem_of_mem_head? (startsScope_cons.1 hstarts).2)
  rw [breakLast?, breakLast?_of_colonFree h, if_neg hstarts]

/-- Does the name hold no colon, as an identifier does not? -/
def IsPlain (name : String) : Prop := ':' ∉ name.toList

instance (name : String) : Decidable (IsPlain name) := inferInstanceAs (Decidable (_ ∉ _))

/-! ### Legible names -/

/-- Can the scope and the name be told from the qualified name? A name of the global namespace may begin
with a colon, one of a scope may not. -/
structure Legible (scope name : String) : Prop where
  normal : IsNormal scope
  whole : breakLast? name.toList = none
  apart : scope = "" ∨ breakLast? (':' :: name.toList) = none

theorem Legible.of_isPlain {scope name : String} (hscope : IsNormal scope) (hname : IsPlain name) :
    Legible scope name :=
  ⟨hscope, breakLast?_of_colonFree hname, .inr (breakLast?_colon_cons hname)⟩

theorem breakLast?_of_colon_cons {text : List Char} (h : breakLast? (':' :: text) = none) :
    breakLast? text = none := by
  cases hrest : breakLast? text with
  | none => rfl
  | some found =>
    rw [breakLast?, hrest] at h
    cases h

theorem toList_qualify (scope name : String) :
    (qualify scope name).toList = scope.toList ++ ':' :: ':' :: name.toList := by
  simp [qualify]

theorem legible_splitQualified (qualified : String) :
    Legible (splitQualified qualified).1 (splitQualified qualified).2 := by
  unfold splitQualified
  split
  · next before after h =>
    obtain ⟨-, hlast⟩ := breakLast?_eq_some h
    exact ⟨isNormal_normalize _, by simpa using breakLast?_of_colon_cons hlast, .inr (by simpa using hlast)⟩
  · next h => exact ⟨isNormal_empty, h, .inl rfl⟩

/-- A name that is apart from its scope is the one behind the rightmost separator. -/
theorem splitQualified_qualify {scope name : String} (hscope : IsNormal scope)
    (hname : breakLast? (':' :: name.toList) = none) : splitQualified (qualify scope name) = (scope, name) := by
  rw [splitQualified, toList_qualify, breakLast?_append hname]
  simp only [String.ofList_toList]
  rw [hscope]

theorem breakLast?_of_append {before after : List Char} (h : breakLast? (before ++ after) = none) :
    breakLast? after = none := by
  induction before with
  | nil => exact h
  | cons c before ih =>
    refine ih ?_
    cases hrest : breakLast? (before ++ after) with
    | none => rfl
    | some found =>
      rw [List.cons_append, breakLast?, hrest] at h
      cases h

/-- A text with a separator in it is broken. -/
theorem breakLast?_ne_none (before after : List Char) : breakLast? (before ++ ':' :: ':' :: after) ≠ none := by
  intro h
  have hseparator := breakLast?_of_append h
  have hrest : breakLast? (':' :: after) = none := @breakLast?_of_append [':'] _ hseparator
  rw [breakLast?, hrest] at hseparator
  cases hseparator

theorem IsNormal.eq_nil_or {scope : String} (h : IsNormal scope) :
    scope = "" ∨ ∃ rest, scope.toList = ':' :: ':' :: rest := by
  have htext : scope.toList = joined ((segments scope.toList).filter fun piece => !piece.isEmpty) := by
    rw [← toList_ofParts, ← parts, ← normalize, h]
  cases hpieces : (segments scope.toList).filter fun piece => !piece.isEmpty with
  | nil =>
    rw [hpieces] at htext
    exact .inl (String.toList_inj.1 htext)
  | cons piece rest =>
    rw [hpieces] at htext
    exact .inr ⟨_, htext⟩

/-- A name of the global namespace has the qualified name of nothing that is inside a scope. -/
theorem eq_of_qualify_global_eq {scope name name' : String} (hwhole : breakLast? name'.toList = none)
    (hscope : IsNormal scope) (h : qualify "" name' = qualify scope name) : scope = "" := by
  rcases hscope.eq_nil_or with hempty | ⟨rest, hrest⟩
  · exact hempty
  · have htext := congrArg String.toList h
    rw [toList_qualify, toList_qualify, hrest] at htext
    have hname : name'.toList = rest ++ ':' :: ':' :: name.toList := by simpa using htext
    rw [hname] at hwhole
    exact absurd hwhole (breakLast?_ne_none _ _)

/-- Two legible pairs with one qualified name are the same. -/
theorem Legible.eq_of_qualify_eq {scope name scope' name' : String} (h : Legible scope name)
    (h' : Legible scope' name') (heq : qualify scope name = qualify scope' name') :
    scope = scope' ∧ name = name' := by
  have hname : scope = scope' → name = name' := by
    rintro rfl
    have htext := congrArg String.toList heq
    rw [toList_qualify, toList_qualify, List.append_cancel_left_eq] at htext
    exact String.toList_inj.1 (by simpa using htext)
  have hscope : scope = scope' := by
    rcases h.apart with rfl | hapart
    · exact (eq_of_qualify_global_eq h.whole h'.normal heq).symm
    · rcases h'.apart with rfl | hapart'
      · exact eq_of_qualify_global_eq h'.whole h.normal heq.symm
      · have hsplit := splitQualified_qualify h.normal hapart
        rw [heq, splitQualified_qualify h'.normal hapart'] at hsplit
        exact (congrArg Prod.fst hsplit).symm
  exact ⟨hscope, hname hscope⟩

/-! ### Identifiers -/

theorem identifier_append (a b : String) : identifier (a ++ b) = identifier a ++ identifier b := by
  simp [identifier, String.toList_append, String.ofList_append]

theorem identifier_of_isPlain {name : String} (h : IsPlain name) : identifier name = name := by
  have hkept : ∀ c ∈ name.toList, (if c = ':' then '_' else c) = id c := by
    intro c hc
    rw [if_neg fun hcolon : c = ':' => h (hcolon ▸ hc)]
    rfl
  rw [identifier, List.map_congr_left hkept, List.map_id, String.ofList_toList]

/-- A name and its scope as one identifier. -/
theorem identifier_qualify (scope : String) {name : String} (h : IsPlain name) :
    identifier (qualify scope name) = identifier scope ++ "__" ++ name := by
  rw [qualify, identifier_append, identifier_append, identifier_of_isPlain h]
  rfl

end LuaGlue.Scope
