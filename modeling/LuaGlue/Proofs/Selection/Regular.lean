import LuaGlue.Proofs.Inheritance.Cycles
import LuaGlue.Proofs.Naming.Scopes
import LuaGlue.Selection.Finish

/-!
Classes as a run registers them.

In the registry of a run no two classes have one qualified name, every class can be told from its
qualified name, and every base is a registered class that closes no cycle. So a class that is looked up
by a legible scope and name is the one of this very scope and name.
-/

namespace LuaGlue

open Relation

namespace Registry

/-- Have bases been added one by one, between registered classes? -/
def Rooted (r : Registry) : Prop :=
  ∃ ids edges, r.Wired ids edges ∧ ∀ id < r.classes.length, id ∈ ids

/-- Can classes be told by their qualified names? -/
structure Named (r : Registry) : Prop where
  legible : ∀ c ∈ r.classes, Scope.Legible c.scope c.name
  distinct : ∀ (x y : ClassId) (c d : BoundClass), r.classes[x]? = some c → r.classes[y]? = some d →
    c.qualified = d.qualified → x = y

/-- The classes of a registry as a run makes them. -/
structure Regular (r : Registry) : Prop where
  rooted : r.Rooted
  named : r.Named

section Rooted

variable {r : Registry}

theorem Rooted.placed (h : r.Rooted) : r.Placed := by
  obtain ⟨ids, edges, hwired, -⟩ := h
  exact hwired.placed

theorem Rooted.basesInRange (h : r.Rooted) : r.BasesInRange := by
  obtain ⟨ids, edges, hwired, -⟩ := h
  exact hwired.inRange

theorem Rooted.acyclic (h : r.Rooted) : r.Acyclic := by
  obtain ⟨ids, edges, hwired, -⟩ := h
  exact hwired.acyclic

/-- Classes are all that counts. -/
theorem Rooted.of_classes_eq (h : r.Rooted) {r' : Registry} (heq : r'.classes = r.classes) : r'.Rooted := by
  obtain ⟨ids, edges, hwired, hids⟩ := h
  have hbases : r'.bases = r.bases := by
    funext id
    rw [bases, bases, class?, class?, heq]
  have hedges : r'.HasBase = r.HasBase := by
    funext d b
    rw [HasBase, HasBase, hbases]
  rw [← heq] at hids
  refine ⟨ids, edges, ⟨?_, ?_, ?_, ?_, ?_, ?_⟩, hids⟩
  · rw [Placed, heq]
    exact hwired.placed
  · rw [heq]
    exact hwired.issued
  · rw [BasesInRange, heq, hbases]
    exact hwired.inRange
  · rw [Acyclic, hedges]
    exact hwired.acyclic
  · rw [hbases]
    exact hwired.ordered
  · rw [hbases]
    exact hwired.nodup

theorem Rooted.empty (patches : Patches) : ({ patches } : Registry).Rooted :=
  ⟨[], [], (Grown.empty patches).wired, fun id hid => absurd hid (Nat.not_lt_zero id)⟩

theorem Rooted.appendClass (h : r.Rooted) (name scope source : String) (state : Option String) :
    (r.appendClass name scope source state).1.Rooted := by
  obtain ⟨ids, edges, hwired, hids⟩ := h
  refine ⟨_, edges, hwired.appendClass name scope source state, fun id hid => ?_⟩
  have hlength : id < r.classes.length + 1 := by simpa [Registry.appendClass] using hid
  rcases Nat.lt_succ_iff_lt_or_eq.1 hlength with hlt | rfl
  · exact List.mem_cons_of_mem _ (hids id hlt)
  · exact List.mem_cons_self

theorem bases_modifyClass (r : Registry) (id : ClassId) {f : BoundClass → BoundClass}
    (hf : ∀ c, (f c).bases = c.bases) (other : ClassId) : (r.modifyClass id f).bases other = r.bases other := by
  unfold bases class? modifyClass
  rw [List.getElem?_modify]
  cases r.classes[other]? with
  | none => rfl
  | some c => by_cases h : id = other <;> simp [h, hf]

/-- Bases stay as they are. -/
theorem Rooted.modifyClass (h : r.Rooted) (id : ClassId) {f : BoundClass → BoundClass} (hid : ∀ c, (f c).id = c.id)
    (hbases : ∀ c, (f c).bases = c.bases) : (r.modifyClass id f).Rooted := by
  rcases Nat.lt_or_ge id r.classes.length with hlt | hge
  · have hplaced := h.placed.modifyClass id hid
    obtain ⟨ids, edges, hwired, hids⟩ := h
    refine ⟨id :: ids, edges, hwired.of_bases_eq hplaced (by simp [Registry.modifyClass])
      (bases_modifyClass r id hbases) (by simpa [Registry.modifyClass] using hlt), fun other hother => ?_⟩
    exact List.mem_cons_of_mem _ (hids other (by simpa [Registry.modifyClass] using hother))
  · have hsame : r.modifyClass id f = r := by
      rw [Registry.modifyClass, List.modify_eq_self hge]
    rwa [hsame]

/-- An accepted edge between registered classes. -/
theorem Rooted.addBase (h : r.Rooted) {derived base : ClassId} (hderived : derived < r.classes.length)
    (hbase : base < r.classes.length) {r' : Registry} (hadd : r.addBase derived base = .ok r') : r'.Rooted := by
  obtain ⟨ids, edges, hwired, hids⟩ := h
  rcases hwired.addBase_eq derived base with ⟨-, herror⟩ | ⟨hback, hok⟩
  · rw [herror] at hadd
    cases hadd
  · rw [hok] at hadd
    cases hadd
    refine ⟨ids, _, hwired.derive (hids derived hderived) (hids base hbase) hback, fun id hid => ?_⟩
    exact hids id (by simpa [Registry.modifyClass] using hid)

end Rooted

section Regular

variable {r : Registry}

theorem Regular.placed (h : r.Regular) : r.Placed := h.rooted.placed

theorem Regular.basesInRange (h : r.Regular) : r.BasesInRange := h.rooted.basesInRange

theorem Regular.acyclic (h : r.Regular) : r.Acyclic := h.rooted.acyclic

theorem Named.eq_of_qualified_eq (h : r.Named) {c d : BoundClass} (hc : c ∈ r.classes) (hd : d ∈ r.classes)
    (heq : c.qualified = d.qualified) : c = d := by
  obtain ⟨x, hx⟩ := List.mem_iff_getElem?.1 hc
  obtain ⟨y, hy⟩ := List.mem_iff_getElem?.1 hd
  obtain rfl := h.distinct x y c d hx hy heq
  exact Option.some.inj (hx.symm.trans hy)

/-! ### Looking up -/

theorem qualified_of_find? {scope name : String} {c : BoundClass} (h : r.find? scope name = some c) :
    c.qualified = Scope.qualify scope name := by
  simpa using List.find?_some h

/-- A class is found by its scope and name. -/
theorem Regular.find?_eq (h : r.Regular) {c : BoundClass} (hc : c ∈ r.classes) :
    r.find? c.scope c.name = some c := by
  cases hfind : r.find? c.scope c.name with
  | none =>
    have hnone := List.find?_eq_none.1 hfind c hc
    simp [BoundClass.qualified] at hnone
  | some d => rw [h.named.eq_of_qualified_eq (mem_of_find? hfind) hc (qualified_of_find? hfind)]

/-- What is found by a legible name has this name. -/
theorem Regular.eq_of_find? (h : r.Regular) {scope name : String} (hlegible : Scope.Legible scope name)
    {c : BoundClass} (hfind : r.find? scope name = some c) : c.scope = scope ∧ c.name = name :=
  (h.named.legible c (mem_of_find? hfind)).eq_of_qualify_eq hlegible (qualified_of_find? hfind)

theorem Regular.class?_eq (h : r.Regular) {c : BoundClass} (hc : c ∈ r.classes) : r.class? c.id = some c :=
  h.placed.getElem? hc

/-! ### Registrations -/

/-- Classes are all that counts. -/
theorem Regular.of_classes_eq (h : r.Regular) {r' : Registry} (heq : r'.classes = r.classes) : r'.Regular := by
  obtain ⟨hrooted, hlegible, hdistinct⟩ := h
  rw [← heq] at hlegible hdistinct
  exact ⟨hrooted.of_classes_eq heq, hlegible, hdistinct⟩

theorem Regular.empty (patches : Patches) (headers : NameSet) : ({ patches, headers } : Registry).Regular := by
  have hnone : ({ patches } : Registry).Regular := by
    refine ⟨.empty patches, ?_, ?_⟩
    · intro c hc
      cases hc
    · intro x y c d hc
      cases hc
  exact hnone.of_classes_eq rfl

/-- A class of the longer registry is one that was there, or the new one at the end. -/
theorem getElem?_appendClass {name scope source : String} {state : Option String} {x : ClassId} {c : BoundClass}
    (h : (r.appendClass name scope source state).1.classes[x]? = some c) :
    r.classes[x]? = some c
      ∨ (x = r.classes.length ∧ c = { id := r.classes.length, name, scope, source, state }) := by
  rw [Registry.appendClass, List.getElem?_append] at h
  split at h
  · exact .inl h
  · next hge =>
    rw [List.getElem?_singleton] at h
    split at h
    · next hzero =>
      cases h
      exact .inr ⟨Nat.le_antisymm (Nat.le_of_sub_eq_zero hzero) (Nat.not_lt.1 hge), rfl⟩
    · cases h

/-- One more class of a name that was free. -/
theorem Regular.appendClass (h : r.Regular) {name scope : String} (hlegible : Scope.Legible scope name)
    (hfree : r.find? scope name = none) (source : String) (state : Option String) :
    (r.appendClass name scope source state).1.Regular := by
  have hnew : ∀ (x : ClassId) (c : BoundClass), r.classes[x]? = some c →
      c.qualified ≠ Scope.qualify scope name := by
    intro x c hc
    simpa using List.find?_eq_none.1 hfree c (List.mem_of_getElem? hc)
  refine ⟨h.rooted.appendClass name scope source state, fun c hc => ?_, fun x y c d hc hd heq => ?_⟩
  · rcases mem_appendClass hc with hold | rfl
    · exact h.named.legible c hold
    · exact hlegible
  · rcases getElem?_appendClass hc with hold | ⟨rfl, rfl⟩
    · rcases getElem?_appendClass hd with hold' | ⟨rfl, rfl⟩
      · exact h.named.distinct x y c d hold hold' heq
      · exact absurd heq (hnew x c hold)
    · rcases getElem?_appendClass hd with hold' | ⟨rfl, -⟩
      · exact absurd heq.symm (hnew y d hold')
      · rfl

/-- Names stay as they are. -/
theorem Named.modifyClass (h : r.Named) (id : ClassId) {f : BoundClass → BoundClass}
    (hname : ∀ c, (f c).name = c.name) (hscope : ∀ c, (f c).scope = c.scope) : (r.modifyClass id f).Named := by
  have hold : ∀ (x : ClassId) (c : BoundClass), (r.modifyClass id f).classes[x]? = some c →
      ∃ old, r.classes[x]? = some old ∧ c.scope = old.scope ∧ c.name = old.name := by
    intro x c hc
    obtain ⟨old, hold, rfl⟩ := getElem?_modifyClass hc
    refine ⟨old, hold, ?_⟩
    split
    · exact ⟨hscope old, hname old⟩
    · exact ⟨rfl, rfl⟩
  refine ⟨fun c hc => ?_, fun x y c d hc hd heq => ?_⟩
  · obtain ⟨x, hx⟩ := List.mem_iff_getElem?.1 hc
    obtain ⟨old, hmem, hscope, hname⟩ := hold x c hx
    rw [hscope, hname]
    exact h.legible old (List.mem_of_getElem? hmem)
  · obtain ⟨old, hplace, hscope, hname⟩ := hold x c hc
    obtain ⟨old', hplace', hscope', hname'⟩ := hold y d hd
    rw [BoundClass.qualified, BoundClass.qualified, hscope, hname, hscope', hname'] at heq
    exact h.distinct x y old old' hplace hplace' heq

/-- What a registration in place leaves of a class. -/
structure SameFace (f : BoundClass → BoundClass) : Prop where
  id : ∀ c, (f c).id = c.id
  name : ∀ c, (f c).name = c.name
  scope : ∀ c, (f c).scope = c.scope
  bases : ∀ c, (f c).bases = c.bases

theorem SameFace.qualified {f : BoundClass → BoundClass} (hf : SameFace f) (c : BoundClass) :
    (f c).qualified = c.qualified := by
  rw [BoundClass.qualified, BoundClass.qualified, hf.name, hf.scope]

/-- Names and bases stay as they are. -/
theorem Regular.modifyClass (h : r.Regular) (id : ClassId) {f : BoundClass → BoundClass} (hf : SameFace f) :
    (r.modifyClass id f).Regular :=
  ⟨h.rooted.modifyClass id hf.id hf.bases, h.named.modifyClass id hf.name hf.scope⟩

theorem Regular.addThinClass (h : r.Regular) {name scope : String} (hlegible : Scope.Legible scope name)
    (source : String) : (r.addThinClass name scope source).1.Regular := by
  rw [Registry.addThinClass]
  split
  · next hfree => exact h.appendClass hlegible hfree source none
  · exact h

/-- An accepted edge between registered classes. -/
theorem Regular.addBase (h : r.Regular) {derived base : ClassId} (hderived : derived < r.classes.length)
    (hbase : base < r.classes.length) {r' : Registry} (hadd : r.addBase derived base = .ok r') : r'.Regular := by
  refine ⟨h.rooted.addBase hderived hbase hadd, ?_⟩
  obtain ⟨-, rfl⟩ := addBase_ok hadd
  exact h.named.modifyClass derived (derive_name base) (derive_scope base)

theorem sameFace_expose (source state : String) : SameFace (expose source state) :=
  ⟨fun _ => rfl, fun _ => rfl, fun _ => rfl, fun _ => rfl⟩

theorem sameFace_describe (c : DeclaredClass) (luaScope : Option String) :
    SameFace (Selection.describe c luaScope) :=
  ⟨fun _ => rfl, fun _ => rfl, fun _ => rfl, fun _ => rfl⟩

theorem sameFace_withMembers (kind : MemberKind) (functions : BoundClass → Functions) :
    SameFace fun c => c.withMembers kind (functions c) := by
  refine ⟨fun c => ?_, fun c => ?_, fun c => ?_, fun c => ?_⟩
  all_goals cases kind <;> rfl

theorem sameFace_enclose (inner : ClassId) : SameFace (Selection.enclose inner) := by
  refine ⟨fun c => ?_, fun c => ?_, fun c => ?_, fun c => ?_⟩
  all_goals
    rw [Selection.enclose]
    split <;> rfl

theorem sameFace_makeDefault : SameFace fun c => { c with hasDefaultConstructor := true } :=
  ⟨fun _ => rfl, fun _ => rfl, fun _ => rfl, fun _ => rfl⟩

theorem Regular.addClass (h : r.Regular) {name scope source state : String} (hlegible : Scope.Legible scope name)
    {r' : Registry} {id : ClassId} (hadd : r.addClass name scope source state = .ok (r', id)) : r'.Regular := by
  obtain ⟨hfree, rfl, -⟩ | ⟨c, -, -, rfl, -⟩ := addClass_cases hadd
  · exact h.appendClass hlegible hfree source (some state)
  · exact h.modifyClass _ (sameFace_expose source state)

end Regular

end Registry

end LuaGlue
