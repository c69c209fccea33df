import LuaGlue.Binding.Inheritance

/-!
Where classes stand.

The id of a class is its place in the registry (`Registry.Placed`). Classes are appended or changed in
place, never moved, so an id goes on naming the same class and a name that is found stays found.
-/

namespace LuaGlue.Registry

/-- The id of every class is its place. -/
def Placed (r : Registry) : Prop := ∀ (id : ClassId) (c : BoundClass), r.classes[id]? = some c → c.id = id

theorem mem_of_find? {r : Registry} {scope name : String} {c : BoundClass} (h : r.find? scope name = some c) :
    c ∈ r.classes := List.mem_of_find?_eq_some h

theorem Placed.getElem? {r : Registry} (h : r.Placed) {c : BoundClass} (hc : c ∈ r.classes) :
    r.classes[c.id]? = some c := by
  obtain ⟨x, hx⟩ := List.mem_iff_getElem?.1 hc
  rw [h x c hx, hx]

theorem Placed.id_lt {r : Registry} (h : r.Placed) {c : BoundClass} (hc : c ∈ r.classes) :
    c.id < r.classes.length := (List.getElem?_eq_some_iff.1 (h.getElem? hc)).1

theorem mem_appendClass {r : Registry} {name scope source : String} {state : Option String} {c : BoundClass}
    (h : c ∈ (r.appendClass name scope source state).1.classes) :
    c ∈ r.classes ∨ c = { id := r.classes.length, name, scope, source, state } := by
  simpa [appendClass] using h

theorem Placed.appendClass {r : Registry} (h : r.Placed) (name scope source : String) (state : Option String) :
    (r.appendClass name scope source state).1.Placed := by
  intro id c hc
  rcases Nat.lt_or_ge id r.classes.length with hlt | hge
  · exact h id c (by rwa [Registry.appendClass, List.getElem?_append_left hlt] at hc)
  · rw [Registry.appendClass, List.getElem?_append_right hge, List.getElem?_singleton] at hc
    split at hc
    · next hzero =>
      cases hc
      exact Nat.le_antisymm hge (Nat.le_of_sub_eq_zero hzero)
    · cases hc

/-- A class of the changed registry is the old one of its place, changed if it is the one meant. -/
theorem getElem?_modifyClass {r : Registry} {id other : ClassId} {f : BoundClass → BoundClass} {c : BoundClass}
    (h : (r.modifyClass id f).classes[other]? = some c) :
    ∃ old, r.classes[other]? = some old ∧ c = if id = other then f old else old := by
  obtain ⟨old, hold, rfl⟩ := Option.map_eq_some_iff.1 (List.getElem?_modify .. ▸ h)
  exact ⟨old, hold, by split <;> rfl⟩

theorem Placed.modifyClass {r : Registry} (h : r.Placed) (id : ClassId) {f : BoundClass → BoundClass}
    (hid : ∀ c, (f c).id = c.id) : (r.modifyClass id f).Placed := by
  intro other c hc
  obtain ⟨old, hold, rfl⟩ := getElem?_modifyClass hc
  split
  · rw [hid]
    exact h other old hold
  · exact h other old hold

theorem Placed.addThinClass {r : Registry} (h : r.Placed) (name scope source : String) :
    (r.addThinClass name scope source).1.Placed := by
  rw [Registry.addThinClass]
  split
  · exact h.appendClass name scope source none
  · exact h

/-! ### What registrations do -/

/-- A class that is exposed is new, or was a thin one. -/
theorem addClass_cases {r r' : Registry} {name scope source state : String} {id : ClassId}
    (hadd : r.addClass name scope source state = .ok (r', id)) :
    (r.find? scope name = none ∧ r' = (r.appendClass name scope source (some state)).1 ∧ id = r.classes.length)
      ∨ ∃ c, r.find? scope name = some c ∧ c.isExposed = false ∧ r' = r.modifyClass c.id (expose source state)
        ∧ id = c.id := by
  unfold addClass at hadd
  split at hadd
  · next hfree =>
    cases hadd
    exact .inl ⟨hfree, rfl, rfl⟩
  · next c hfind =>
    split at hadd
    · cases hadd
    · next hthin =>
      cases hadd
      exact .inr ⟨c, hfind, Bool.eq_false_iff.2 hthin, rfl, rfl⟩

theorem addBase_ok {r r' : Registry} {derived base : ClassId} (hadd : r.addBase derived base = .ok r') :
    r.closesCycle derived base = false ∧ r' = r.modifyClass derived (derive base) := by
  unfold addBase at hadd
  split at hadd
  · cases hadd
  · next hopen =>
    cases hadd
    exact ⟨Bool.eq_false_iff.2 hopen, rfl⟩

theorem addEnum_ok {r r' : Registry} {e : BoundEnum} (hadd : r.addEnum e = .ok r') :
    r.hasEnum e.qualified = false ∧ r' = { r with enums := r.enums ++ [e] } := by
  unfold addEnum at hadd
  split at hadd
  · cases hadd
  · next hfree =>
    cases hadd
    exact ⟨Bool.eq_false_iff.2 hfree, rfl⟩

@[simp] theorem derive_id (base : ClassId) (c : BoundClass) : (derive base c).id = c.id := by
  rw [derive]
  split <;> rfl

@[simp] theorem derive_name (base : ClassId) (c : BoundClass) : (derive base c).name = c.name := by
  rw [derive]
  split <;> rfl

@[simp] theorem derive_scope (base : ClassId) (c : BoundClass) : (derive base c).scope = c.scope := by
  rw [derive]
  split <;> rfl

@[simp] theorem derive_isExposed (base : ClassId) (c : BoundClass) : (derive base c).isExposed = c.isExposed := by
  rw [derive]
  split <;> rfl

@[simp] theorem derive_members (base : ClassId) (c : BoundClass) (kind : MemberKind) :
    (derive base c).members kind = c.members kind := by
  rw [derive]
  split
  · rfl
  · cases kind <;> rfl

@[simp] theorem derive_qualified (base : ClassId) (c : BoundClass) : (derive base c).qualified = c.qualified := by
  rw [BoundClass.qualified, BoundClass.qualified, derive_scope, derive_name]

/-! ### Classes that are held -/

/-- Is there a class of this reference? -/
def holds (r : Registry) (ref : ClassRef) : Bool := (r.find? ref.scope ref.name).isSome

theorem holds_iff {r : Registry} {ref : ClassRef} :
    r.holds ref = true ↔ ∃ c ∈ r.classes, c.qualified = Scope.qualify ref.scope ref.name := by
  simp [holds, find?]

theorem holds_addThinClass {r : Registry} {ref : ClassRef} (h : r.holds ref = true) (name scope source : String) :
    (r.addThinClass name scope source).1.holds ref = true := by
  rw [addThinClass]
  split
  · obtain ⟨c, hc, hname⟩ := holds_iff.1 h
    exact holds_iff.2 ⟨c, by simp [appendClass, hc], hname⟩
  · exact h

/-- Classes that keep their names stay held. -/
theorem holds_modifyClass {r : Registry} {ref : ClassRef} (h : r.holds ref = true) (id : ClassId)
    {f : BoundClass → BoundClass} (hf : ∀ c, (f c).qualified = c.qualified) :
    (r.modifyClass id f).holds ref = true := by
  obtain ⟨c, hc, hname⟩ := holds_iff.1 h
  obtain ⟨x, hx⟩ := List.mem_iff_getElem?.1 hc
  have hx' : (r.modifyClass id f).classes[x]? = some (if id = x then f c else c) := by
    rw [modifyClass, List.getElem?_modify, hx]
    rfl
  refine holds_iff.2 ⟨_, List.mem_of_getElem? hx', ?_⟩
  split
  · rw [hf, hname]
  · exact hname

end LuaGlue.Registry
