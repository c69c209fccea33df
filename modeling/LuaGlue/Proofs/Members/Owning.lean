import LuaGlue.Proofs.Inheritance.Reachable
import LuaGlue.Proofs.Selection.Housed

/-!
Members of the classes of every registry that can be reached.

A member is kept under its own name, it names the class that it is kept in as its owner, and if it is redirected, there
is a native wrapper. A registration puts in a member like this, gives one more overload to one that is there, or leaves
the members alone, so runs keep it, those that stop early included.

    extendMember    new member, or the old one with one more overload
    redirect        a wrapper in place of a member          implement    a wrapper as a metamethod
    settled         some members dropped
-/

namespace LuaGlue

open Selection

/-- A member as registrations leave it in a class, under a key. -/
structure BoundFunction.OwnedBy (f : BoundFunction) (id : ClassId) (key : String) : Prop where
  name : f.name = key
  owner : f.owner = some id
  redirected : f.isRedirector = true → f.wrapperName.isSome = true

/-- One more overload changes neither the name nor the owner. -/
theorem BoundFunction.OwnedBy.addOverload {f g : BoundFunction} {id : ClassId} {key : String} {o : Overload}
    (h : f.OwnedBy id key) (hadd : f.addOverload o = .ok g) : g.OwnedBy id key := by
  rw [addOverload_eq_ok hadd]
  exact ⟨h.name, h.owner, h.redirected⟩

theorem ownedBy_newMember (c : BoundClass) (f : DeclaredFunction) (result : CxxType) :
    (newMember c f result).OwnedBy c.id f.name := ⟨rfl, rfl, nofun⟩

theorem ownedBy_wrappedMember (c : BoundClass) (name wrapper source : String) :
    (wrappedMember c name wrapper source).OwnedBy c.id name := ⟨rfl, rfl, fun _ => rfl⟩

/-- Does every member know its name and its class? -/
def BoundClass.Owning (c : BoundClass) : Prop :=
  ∀ kind, ∀ entry ∈ (c.members kind).entries, entry.2.OwnedBy c.id entry.1

namespace BoundClass

variable {c d : BoundClass}

theorem Owning.of_members_eq (h : c.Owning) (hid : d.id = c.id) (hmembers : ∀ kind, d.members kind = c.members kind) :
    d.Owning := by
  intro kind entry hentry
  rw [hmembers] at hentry
  rw [hid]
  exact h kind entry hentry

/-- Other members of a kind. -/
theorem Owning.withMembers (h : c.Owning) {kind : MemberKind} {functions : Functions}
    (hfunctions : ∀ entry ∈ functions.entries, entry.2.OwnedBy c.id entry.1) : (c.withMembers kind functions).Owning := by
  intro other entry hentry
  rw [members_withMembers] at hentry
  rw [id_withMembers]
  split at hentry
  · exact hfunctions entry hentry
  · exact h other entry hentry

/-- One more member, or another one in its place. -/
theorem Owning.insert (h : c.Owning) (kind : MemberKind) {key : String} {f : BoundFunction}
    (hf : f.OwnedBy c.id key) : (c.withMembers kind ((c.members kind).insert key f)).Owning := by
  refine h.withMembers fun entry hentry => ?_
  rcases NameMap.mem_insertIn hentry with rfl | hold
  · exact hf
  · exact h kind entry hold

/-- Fewer members. -/
theorem Owning.eraseAll (h : c.Owning) (kind : MemberKind) (keys : List String) :
    (c.withMembers kind (keys.foldl NameMap.erase (c.members kind))).Owning :=
  h.withMembers fun entry hentry => h kind entry (NameMap.mem_entries_eraseAll.1 hentry).1

end BoundClass

namespace Registry

/-- A registry whose classes are placed and know their members. -/
structure Owning (r : Registry) : Prop where
  rooted : r.Rooted
  classes : ∀ c ∈ r.classes, c.Owning

section Owning

variable {r r' : Registry}

theorem Owning.of_classes_eq (h : r.Owning) (heq : r'.classes = r.classes) : r'.Owning :=
  ⟨h.rooted.of_classes_eq heq, heq ▸ h.classes⟩

/-- Classes that are changed in place and go on knowing their members. -/
theorem Owning.members_modifyClass (h : r.Owning) (id : ClassId) {f : BoundClass → BoundClass}
    (hf : ∀ c, r.class? id = some c → c.Owning → (f c).Owning) : ∀ c ∈ (r.modifyClass id f).classes, c.Owning := by
  intro c hc
  obtain ⟨place, hplace⟩ := List.mem_iff_getElem?.1 hc
  obtain ⟨old, hold, rfl⟩ := getElem?_modifyClass hplace
  have howning := h.classes old (List.mem_of_getElem? hold)
  split
  · next heq => exact hf old (heq ▸ hold) howning
  · exact howning

/-- A class that has just been appended has no members. -/
theorem Owning.members_appendClass (h : r.Owning) (name scope source : String) (state : Option String) :
    ∀ c ∈ (r.appendClass name scope source state).1.classes, c.Owning := by
  intro c hc
  rcases mem_appendClass hc with hold | rfl
  · exact h.classes c hold
  · intro kind entry hentry
    cases kind <;> cases hentry

theorem Owning.members_addThinClass (h : r.Owning) (name scope source : String) :
    ∀ c ∈ (r.addThinClass name scope source).1.classes, c.Owning := by
  rw [addThinClass]
  split
  · exact h.members_appendClass name scope source none
  · exact h.classes

theorem Owning.members_change (h : r.Owning) (hchange : Change r r') : ∀ c ∈ r'.classes, c.Owning := by
  cases hchange with
  | mapTemplate => exact h.classes
  | wrap =>
    rw [addSignature]
    split <;> exact h.classes
  | expose hadd =>
    obtain ⟨-, rfl, -⟩ | ⟨c, -, -, rfl, -⟩ := addClass_cases hadd
    · exact h.members_appendClass _ _ _ _
    · exact h.members_modifyClass _ fun c _ hc => hc.of_members_eq rfl fun kind => by cases kind <;> rfl
  | addThin name scope source => exact h.members_addThinClass name scope source
  | describe id c luaScope =>
    exact h.members_modifyClass id fun d _ hd => hd.of_members_eq rfl ((sameMembers_describe c luaScope).members d)
  | @derive _ derived base scope name hbase hadd =>
    obtain ⟨-, rfl⟩ := addBase_ok hadd
    exact h.members_modifyClass derived fun c _ hc => hc.of_members_eq (derive_id base c) (derive_members base c)
  | nest scope id =>
    obtain hsame | ⟨outer, hnested⟩ := nestClass_cases r scope id
    · rw [hsame]
      exact h.classes
    · rw [hnested]
      exact h.members_modifyClass outer fun c _ hc =>
        hc.of_members_eq ((sameFace_enclose id).id c) ((sameMembers_enclose id).members c)
  | makeDefault id =>
    exact h.members_modifyClass id fun c _ hc => hc.of_members_eq rfl (sameMembers_makeDefault.members c)
  | @extendMember id c f o result m hc hadd =>
    refine h.members_modifyClass id fun d hd hd' => ?_
    obtain rfl : c = d := Option.some.inj (hc.symm.trans hd)
    refine hd'.insert (kindOf f) (BoundFunction.OwnedBy.addOverload ?_ hadd)
    cases hold : (c.members (kindOf f)).get? f.name with
    | none => exact ownedBy_newMember c f result
    | some old => exact hd' (kindOf f) _ (NameMap.mem_entries_of_get? hold)
  | extendFunction => exact h.classes
  | bindWrapper => exact h.classes
  | enter hadd =>
    obtain ⟨-, rfl⟩ := addEnum_ok hadd
    exact h.classes
  | redirect c request wrapper source =>
    refine h.members_modifyClass c.id fun d hd hd' => ?_
    have hwrapped := ownedBy_wrappedMember c request.function wrapper source
    refine hd'.insert _ ⟨hwrapped.name, ?_, hwrapped.redirected⟩
    exact hwrapped.owner.trans (congrArg some (h.rooted.placed c.id d hd).symm)
  | implement c name wrapper source =>
    refine h.members_modifyClass c.id fun d hd hd' => ?_
    have hwrapped := ownedBy_wrappedMember c name wrapper source
    refine hd'.insert _ ⟨hwrapped.name, ?_, hwrapped.redirected⟩
    exact hwrapped.owner.trans (congrArg some (h.rooted.placed c.id d hd).symm)
  | includeHeader => exact h.classes

theorem Owning.change (hchange : Change r r') (h : r.Owning) : r'.Owning :=
  ⟨h.rooted.change hchange, h.members_change hchange⟩

theorem Owning.addBase (h : r.Owning) {derived base : ClassId} (hderived : derived < r.classes.length)
    (hbase : base < r.classes.length) (hadd : r.addBase derived base = .ok r') : r'.Owning := by
  refine ⟨h.rooted.addBase hderived hbase hadd, ?_⟩
  obtain ⟨-, rfl⟩ := addBase_ok hadd
  exact h.members_modifyClass derived fun c _ hc => hc.of_members_eq (derive_id base c) (derive_members base c)

/-- Members that are dropped are dropped whole. -/
theorem Owning.dropMembers (h : r.Owning) (id : ClassId) (kind : MemberKind) (keys : List String) :
    (Selection.dropMembers id kind keys r).Owning := by
  have hface := sameFace_withMembers kind fun c => keys.foldl NameMap.erase (c.members kind)
  exact ⟨h.rooted.modifyClass id hface.id hface.bases, h.members_modifyClass id fun c _ hc => hc.eraseAll kind keys⟩

end Owning

/-- In every registry that can be reached, the members know their names and their classes. -/
theorem Reachable.owning {r : Registry} (h : r.Reachable) : r.Owning := by
  induction h with
  | empty patches => exact ⟨.empty patches, nofun⟩
  | register _ hchange ih => exact ih.change hchange
  | addBase _ hderived hbase hadd ih => exact ih.addBase hderived hbase hadd
  | select _ sources ih =>
    exact keeps_select (fun hr heq => hr.of_classes_eq heq) Owning.change
      (fun _ id kind keys hr => hr.dropMembers id kind keys) ih sources

end Registry

end LuaGlue
