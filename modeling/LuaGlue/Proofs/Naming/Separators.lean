import LuaGlue.Proofs.Naming.Scopes

/-!
Separators in front of a name.

Seen from the global namespace a name has exactly one separator in front, however many it is spelled with. A scope
that has names is seen then (`fromGlobal_qualify_eq_iff`), and the qualified name is split where it was put together
(`splitQualified_fromGlobal`).

    ::::A::B   --fromGlobal-->   ::A::B   --splitQualified-->   (::A, B)
-/

namespace LuaGlue.Scope

/-! ### Taking separators off -/

theorem startsScope_eq_false {text : List Char} (h : ∀ rest, text ≠ ':' :: ':' :: rest) : startsScope text = false :=
  Bool.eq_false_iff.2 fun hstarts => by
    obtain ⟨rest, hrest⟩ := startsScope_eq_true hstarts
    exact h rest hrest

theorem length_dropSeparators_le (text : List Char) : (dropSeparators text).length ≤ text.length := by
  fun_induction dropSeparators text with
  | case1 rest ih => simp; omega
  | case2 => exact Nat.le_refl _

theorem dropSeparators_of_not_startsScope {text : List Char} (h : startsScope text = false) :
    dropSeparators text = text := by
  fun_cases dropSeparators text with
  | case1 rest => cases h
  | case2 => rfl

/-- One colon more in front is seen, since separators take colons two at a time. -/
theorem dropSeparators_colon_cons_ne (text : List Char) :
    dropSeparators (':' :: text) ≠ dropSeparators text := by
  fun_induction dropSeparators text with
  | case1 rest ih => simpa only [dropSeparators] using ih
  | case2 text hsep =>
    intro heq
    have hlength := congrArg List.length heq
    cases hstarts : startsScope (':' :: text) with
    | false =>
      rw [dropSeparators_of_not_startsScope hstarts] at hlength
      simp at hlength
    | true =>
      obtain ⟨rest, hrest⟩ := startsScope_eq_true hstarts
      obtain rfl : text = ':' :: rest := List.tail_eq_of_cons_eq hrest
      have := length_dropSeparators_le rest
      rw [dropSeparators, List.length_cons] at hlength
      omega

/-- Behind a scope that does not begin with a separator all separators stay, unless the scope is a colon alone,
which makes a separator with the one behind it. -/
theorem dropSeparators_append_cases {scope : List Char} (h : startsScope scope = false) (name : List Char) :
    (scope = [] ∧ dropSeparators (scope ++ ':' :: ':' :: name) = dropSeparators name)
      ∨ (scope = [':'] ∧ dropSeparators (scope ++ ':' :: ':' :: name) = dropSeparators (':' :: name))
      ∨ (scope ≠ [] ∧ dropSeparators (scope ++ ':' :: ':' :: name) = scope ++ ':' :: ':' :: name) := by
  cases hwhole : startsScope (scope ++ ':' :: ':' :: name) with
  | false =>
    refine .inr (.inr ⟨?_, dropSeparators_of_not_startsScope hwhole⟩)
    rintro rfl
    cases hwhole
  | true =>
    obtain ⟨tail, htail⟩ := startsScope_eq_true hwhole
    match scope with
    | [] => exact .inl ⟨rfl, rfl⟩
    | [c] =>
      obtain rfl : c = ':' := by simpa using congrArg List.head? htail
      exact .inr (.inl ⟨rfl, rfl⟩)
    | c :: d :: rest =>
      simp only [List.cons_append, List.cons.injEq] at htail
      obtain ⟨rfl, rfl, -⟩ := htail
      cases h

/-- A scope is not seen from the global namespace exactly if it has no names. -/
theorem dropSeparators_append_eq_iff (scope name : List Char) :
    dropSeparators (scope ++ ':' :: ':' :: name) = dropSeparators name ↔ ∀ piece ∈ segments scope, piece = [] := by
  fun_induction dropSeparators scope with
  | case1 rest ih =>
    rw [List.cons_append, List.cons_append, dropSeparators, ih, segments]
    simp
  | case2 scope hsep =>
    have hstarts : startsScope scope = false := startsScope_eq_false hsep
    rcases dropSeparators_append_cases hstarts name with ⟨rfl, heq⟩ | ⟨rfl, heq⟩ | ⟨hne, heq⟩
    · exact iff_of_true heq (by simp [segments])
    · rw [heq]
      exact iff_of_false (dropSeparators_colon_cons_ne name) (by decide)
    · obtain ⟨c, rest, rfl⟩ := List.exists_cons_of_ne_nil hne
      refine iff_of_false (fun hsame => ?_) ?_
      · have hlength := congrArg List.length (heq.symm.trans hsame)
        have := length_dropSeparators_le name
        simp only [List.length_append, List.length_cons] at hlength
        omega
      · rw [segments_cons hstarts]
        cases hrest : segments rest with
        | nil => exact absurd hrest (segments_ne_nil rest)
        | cons piece pieces => simp

theorem parts_eq_nil_iff {scope : String} : parts scope = [] ↔ ∀ piece ∈ segments scope.toList, piece = [] := by
  simp [parts, List.filter_eq_nil_iff]

/-- A qualified name is the name itself exactly if the scope has no names. -/
theorem fromGlobal_qualify_eq_iff (scope name : String) :
    fromGlobal (qualify scope name) = fromGlobal name ↔ parts scope = [] := by
  rw [parts_eq_nil_iff, ← dropSeparators_append_eq_iff scope.toList name.toList, ← toList_qualify]
  unfold fromGlobal
  rw [String.append_right_inj, String.ofList_inj]

/-! ### Global names -/

theorem isGlobal_qualify {scope : String} (h : IsNormal scope) (name : String) :
    isGlobal (qualify scope name) = true := by
  rw [isGlobal, toList_qualify]
  rcases h.eq_nil_or with rfl | ⟨rest, hrest⟩
  · rfl
  · rw [hrest]
    rfl

theorem breakLast?_ne_none_of_isGlobal {name : String} (h : isGlobal name = true) : breakLast? name.toList ≠ none := by
  obtain ⟨rest, hrest⟩ := startsScope_eq_true h
  rw [hrest]
  exact breakLast?_ne_none [] rest

theorem breakLast?_qualify_ne_none (scope name : String) : breakLast? (qualify scope name).toList ≠ none := by
  rw [toList_qualify]
  exact breakLast?_ne_none _ _

theorem isGlobal_fromGlobal (name : String) : isGlobal (fromGlobal name) = true := by
  simp [isGlobal, fromGlobal, startsScope]

theorem startsScope_of_breakLast? {text : List Char} (h : breakLast? text = none) : startsScope text = false :=
  startsScope_eq_false fun rest hrest => breakLast?_ne_none [] rest (hrest ▸ h)

/-- However many separators are in front, the names before the last one stay. -/
theorem exists_dropSeparators_eq {name : List Char} (h : breakLast? (':' :: name) = none) (scope : List Char) :
    ∃ before, ':' :: ':' :: dropSeparators (scope ++ ':' :: ':' :: name) = before ++ ':' :: ':' :: name
      ∧ (segments before).filter (!·.isEmpty) = (segments scope).filter (!·.isEmpty) := by
  have hname := dropSeparators_of_not_startsScope (startsScope_of_breakLast? (breakLast?_of_colon_cons h))
  have hcolon := dropSeparators_of_not_startsScope (startsScope_of_breakLast? h)
  fun_induction dropSeparators scope with
  | case1 rest ih =>
    obtain ⟨before, hbefore, hparts⟩ := ih
    exact ⟨before, by simpa [dropSeparators] using hbefore, by simpa [segments] using hparts⟩
  | case2 scope hsep =>
    rcases dropSeparators_append_cases (startsScope_eq_false hsep) name with ⟨rfl, heq⟩ | ⟨rfl, heq⟩ | ⟨-, heq⟩
    · exact ⟨[], by rw [heq, hname]; rfl, rfl⟩
    · exact ⟨[':'], by rw [heq, hcolon]; rfl, rfl⟩
    · exact ⟨':' :: ':' :: scope, by rw [heq]; rfl, by simp [segments]⟩

/-- A qualified name seen from the global namespace is split where it was put together. -/
theorem splitQualified_fromGlobal {scope name : String} (hscope : IsNormal scope)
    (hname : breakLast? (':' :: name.toList) = none) :
    splitQualified (fromGlobal (qualify scope name)) = (scope, name) := by
  obtain ⟨before, hbefore, hparts⟩ := exists_dropSeparators_eq hname scope.toList
  have htext : (fromGlobal (qualify scope name)).toList = before ++ ':' :: ':' :: name.toList := by
    rw [← hbefore, ← toList_qualify]
    simp [fromGlobal]
  have hnormal : normalize (String.ofList before) = scope := by
    rw [← hscope, normalize, normalize, parts, parts, String.toList_ofList, hparts]
  rw [splitQualified, htext, breakLast?_append hname]
  simp [hnormal]

end LuaGlue.Scope
