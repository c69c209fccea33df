import Mathlib.Data.List.Forall2

/-!
Computations that have succeeded.

A sequence of steps succeeds with the results of its steps, and a step made for each element of a list
succeeds with one result for each.
-/

namespace LuaGlue

theorem bind_eq_ok {ε α β : Type} {x : Except ε α} {f : α → Except ε β} {b : β} :
    x >>= f = .ok b ↔ ∃ a, x = .ok a ∧ f a = .ok b := by
  cases x with
  | error e => simp [bind, Except.bind]
  | ok a => simp [bind, Except.bind]

theorem map_eq_ok {ε α β : Type} {f : α → β} {x : Except ε α} {b : β} :
    f <$> x = .ok b ↔ ∃ a, x = .ok a ∧ f a = b := by
  cases x with
  | error e => simp [Functor.map, Except.map]
  | ok a => simp [Functor.map, Except.map]

/-- A result that passes a test. -/
theorem exists_ok_of_any {ε α : Type} {x : Except ε α} {test : α → Bool} (h : x.toOption.any test = true) :
    ∃ a, x = .ok a ∧ test a = true := by
  cases x with
  | error e => cases h
  | ok a => exact ⟨a, rfl, h⟩

/-- In lists that are related element by element, each place of the first has one in the second. -/
theorem exists_getElem?_of_forall₂ {α β : Type} {R : α → β → Prop} {l : List α} {l' : List β}
    (h : List.Forall₂ R l l') {i : Nat} {a : α} (ha : l[i]? = some a) : ∃ b, l'[i]? = some b ∧ R a b := by
  induction h generalizing i with
  | nil => simp at ha
  | cons hhead _ ih =>
    cases i with
    | zero =>
      obtain rfl := Option.some.inj ha
      exact ⟨_, rfl, hhead⟩
    | succ i => exact ih (by simpa using ha)

theorem exists_mem_of_forall₂ {α β : Type} {R : α → β → Prop} {l : List α} {l' : List β}
    (h : List.Forall₂ R l l') {a : α} (ha : a ∈ l) : ∃ b ∈ l', R a b := by
  obtain ⟨i, hi⟩ := List.getElem?_of_mem ha
  obtain ⟨b, hb, hrelated⟩ := exists_getElem?_of_forall₂ h hi
  exact ⟨b, List.mem_of_getElem? hb, hrelated⟩

/-- What holds of all elements of a list holds of all those that they are related to. -/
theorem forall_mem_iff_of_forall₂ {α β : Type} {P : α → Prop} {Q : β → Prop} {l : List α} {l' : List β}
    (h : List.Forall₂ (fun a b => P a ↔ Q b) l l') : (∀ a ∈ l, P a) ↔ ∀ b ∈ l', Q b := by
  induction h with
  | nil => simp
  | cons hhead _ ih => rw [List.forall_mem_cons, List.forall_mem_cons, hhead, ih]

section MapM

variable {ε α β : Type} {f : α → Except ε β} {l : List α} {found : List β}

theorem mapM_cons_eq_ok {a : α} : (a :: l).mapM f = .ok found
    ↔ ∃ b rest, f a = .ok b ∧ l.mapM f = .ok rest ∧ found = b :: rest := by
  simp only [List.mapM_cons, bind_eq_ok, pure, Except.pure, Except.ok.injEq]
  constructor
  · rintro ⟨b, hb, rest, hrest, rfl⟩
    exact ⟨b, rest, hb, hrest, rfl⟩
  · rintro ⟨b, rest, hb, hrest, rfl⟩
    exact ⟨b, hb, rest, hrest, rfl⟩

/-- The results are those of the elements, in order. -/
theorem forall₂_of_mapM_ok (h : l.mapM f = .ok found) : List.Forall₂ (fun a b => f a = .ok b) l found := by
  induction l generalizing found with
  | nil =>
    cases h
    exact .nil
  | cons a l ih =>
    obtain ⟨b, rest, hb, hrest, rfl⟩ := mapM_cons_eq_ok.1 h
    exact .cons hb (ih hrest)

/-- Each result is that of an element. -/
theorem exists_of_mem_mapM_ok (h : l.mapM f = .ok found) : ∀ b ∈ found, ∃ a ∈ l, f a = .ok b :=
  fun _ hb => exists_mem_of_forall₂ (forall₂_of_mapM_ok h).flip hb

/-- Each element has its result. -/
theorem exists_mem_of_mapM_ok (h : l.mapM f = .ok found) : ∀ a ∈ l, ∃ b ∈ found, f a = .ok b :=
  fun _ ha => exists_mem_of_forall₂ (forall₂_of_mapM_ok h) ha

theorem length_of_mapM_ok (h : l.mapM f = .ok found) : found.length = l.length :=
  (forall₂_of_mapM_ok h).length_eq.symm

/-- More elements have more results. -/
theorem sublist_of_mapM_ok {l' : List α} {found' : List β} (h : l.Sublist l') (hfound : l.mapM f = .ok found)
    (hfound' : l'.mapM f = .ok found') : found.Sublist found' := by
  induction h generalizing found found' with
  | slnil =>
    rw [hfound] at hfound'
    cases hfound'
    exact .refl _
  | cons a _ ih =>
    obtain ⟨b, rest, -, hrest, rfl⟩ := mapM_cons_eq_ok.1 hfound'
    exact (ih hfound hrest).cons b
  | cons_cons a _ ih =>
    obtain ⟨b, rest, hb, hrest, rfl⟩ := mapM_cons_eq_ok.1 hfound
    obtain ⟨b', rest', hb', hrest', rfl⟩ := mapM_cons_eq_ok.1 hfound'
    rw [hb] at hb'
    cases hb'
    exact (ih hrest hrest').cons_cons b

end MapM

end LuaGlue
