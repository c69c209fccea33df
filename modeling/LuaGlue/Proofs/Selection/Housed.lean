import LuaGlue.Proofs.Selection.Pruned
import LuaGlue.Proofs.Selection.Recorded
import LuaGlue.Proofs.Selection.Regular
import LuaGlue.Proofs.Selection.Stock
import LuaGlue.Proofs.Spelling.Refs

/-!
Where functions are kept.

A member is kept in the class that it names as its owner, and its scope is the qualified name of this
class, unless a native wrapper stands for it. Only exposed classes have members that are generated. The
classes in the types of a function can be told from their names, and its result is recorded if it is a
function type. `Housed` says this relative to the function types that are recorded, because a function is
bound before its own are.
-/

namespace LuaGlue

open Selection

/-- The types of a function as a run reads them. -/
structure BoundFunction.Served (signatures : NameMap Signature) (f : BoundFunction) : Prop where
  params : ∀ t ∈ f.paramTypes, t.IsLegible
  result : f.result.IsLegible
  recorded : f.result.IsRecorded signatures

theorem BoundFunction.Served.mono {old new : NameMap Signature} {f : BoundFunction} (h : f.Served old)
    (hcovers : Covers old new) : f.Served new :=
  ⟨h.params, h.result, h.recorded.mono hcovers⟩

/-- One more overload of types that can be read. -/
theorem BoundFunction.Served.addOverload {signatures : NameMap Signature} {f g : BoundFunction} {o : Overload}
    (h : f.Served signatures) (ho : ∀ p ∈ o, p.type.IsLegible) (hadd : f.addOverload o = .ok g) :
    g.Served signatures := by
  rw [BoundFunction.addOverload_eq_ok hadd]
  refine ⟨fun t ht => ?_, h.result, h.recorded⟩
  rw [paramTypes, List.flatMap_append, List.mem_append] at ht
  rcases ht with hold | hnew
  · exact h.params t hold
  · rw [List.flatMap_singleton] at hnew
    obtain ⟨p, hp, rfl⟩ := List.mem_map.1 hnew
    exact ho p hp

namespace BoundClass

/-- A member that is generated belongs to the class it is kept in. -/
structure Owns (signatures : NameMap Signature) (c : BoundClass) (kind : MemberKind) (f : BoundFunction) :
    Prop where
  owner : f.owner = some c.id
  scope : f.scope = c.qualified
  isStatic : f.isStatic = true ↔ kind ≠ .function
  direct : f.wrapperName = none
  served : f.Served signatures

/-- A member of a kind that is generated: of an exposed class, and its own unless it is redirected. -/
structure Houses (signatures : NameMap Signature) (c : BoundClass) (kind : MemberKind) (f : BoundFunction) :
    Prop where
  exposed : c.isExposed = true
  redirected : f.isRedirector = true → f.wrapperName.isSome = true ∧ kind ≠ .constructor
  owned : f.isRedirector = false → c.Owns signatures kind f

/-- The members of a class as a run keeps them. -/
structure Housed (signatures : NameMap Signature) (c : BoundClass) : Prop where
  plain : c.isExposed = true → Scope.IsPlain c.name
  members : ∀ kind ∈ generatedKinds, ∀ f ∈ (c.members kind).values, c.Houses signatures kind f

section Housed

variable {signatures : NameMap Signature} {c d : BoundClass}

theorem Housed.mono {new : NameMap Signature} (h : c.Housed signatures) (hcovers : Covers signatures new) :
    c.Housed new := by
  refine ⟨h.plain, fun kind hkind f hf => ?_⟩
  obtain ⟨hexposed, hredirected, howned⟩ := h.members kind hkind f hf
  refine ⟨hexposed, hredirected, fun hdirect => ?_⟩
  have hown := howned hdirect
  exact ⟨hown.owner, hown.scope, hown.isStatic, hown.direct, hown.served.mono hcovers⟩

/-- A class without members. -/
theorem Housed.of_members_empty (hplain : c.isExposed = true → Scope.IsPlain c.name)
    (hmembers : ∀ kind, c.members kind = ∅) : c.Housed signatures := by
  refine ⟨hplain, fun kind _ f hf => ?_⟩
  rw [hmembers] at hf
  cases hf

/-- A class that keeps its members and its name, and may become exposed. -/
theorem Housed.of_members_eq (h : c.Housed signatures) (hid : d.id = c.id) (hscope : d.scope = c.scope)
    (hname : d.name = c.name) (hmembers : ∀ kind, d.members kind = c.members kind)
    (hexposed : c.isExposed = true → d.isExposed = true)
    (hplain : d.isExposed = true → Scope.IsPlain d.name) : d.Housed signatures := by
  refine ⟨hplain, fun kind hkind f hf => ?_⟩
  rw [hmembers] at hf
  obtain ⟨hold, hredirected, howned⟩ := h.members kind hkind f hf
  refine ⟨hexposed hold, hredirected, fun hdirect => ?_⟩
  have hown := howned hdirect
  refine ⟨hown.owner.trans (congrArg some hid.symm), ?_, hown.isStatic, hown.direct, hown.served⟩
  rw [hown.scope, qualified, qualified, hscope, hname]

/-- Other members of a kind. -/
theorem Housed.withMembers (h : c.Housed signatures) {kind : MemberKind} {functions : Functions}
    (hf : kind ∈ generatedKinds → ∀ f ∈ functions.values, c.Houses signatures kind f) :
    (c.withMembers kind functions).Housed signatures := by
  refine ⟨fun hexposed => ?_, fun other hother g hg => ?_⟩
  · rw [isExposed_withMembers] at hexposed
    rw [(Registry.sameFace_withMembers kind fun _ => _).name]
    exact h.plain hexposed
  · rw [members_withMembers] at hg
    have hhouses : c.Houses signatures other g := by
      split at hg
      · next heq =>
        subst heq
        exact hf hother g hg
      · exact h.members other hother g hg
    refine ⟨?_, hhouses.redirected, fun hdirect => ?_⟩
    · rw [isExposed_withMembers]
      exact hhouses.exposed
    · have hown := hhouses.owned hdirect
      refine ⟨?_, ?_, hown.isStatic, hown.direct, hown.served⟩
      · rw [id_withMembers]
        exact hown.owner
      · rw [(Registry.sameFace_withMembers kind fun _ => _).qualified]
        exact hown.scope

/-- One more member, or another one of the same name. -/
theorem Housed.insert (h : c.Housed signatures) {kind : MemberKind} {f : BoundFunction} (key : String)
    (hf : kind ∈ generatedKinds → c.Houses signatures kind f) :
    (c.withMembers kind ((c.members kind).insert key f)).Housed signatures := by
  refine h.withMembers fun hkind g hg => ?_
  rcases NameMap.mem_values_insert hg with rfl | hold
  · exact hf hkind
  · exact h.members kind hkind g hold

/-- Fewer members of a kind. -/
theorem Housed.eraseAll (h : c.Housed signatures) (kind : MemberKind) (keys : List String) :
    (c.withMembers kind (keys.foldl NameMap.erase (c.members kind))).Housed signatures := by
  refine h.withMembers fun hkind g hg => ?_
  obtain ⟨key, hkey⟩ := NameMap.mem_values.1 hg
  exact h.members kind hkind g (NameMap.mem_values.2 ⟨key, (NameMap.mem_entries_eraseAll.1 hkey).1⟩)

end Housed

end BoundClass

namespace Registry

/-- The functions of a registry as a run keeps them. -/
structure Housed (signatures : NameMap Signature) (r : Registry) : Prop where
  classes : ∀ c ∈ r.classes, c.Housed signatures
  functions : ∀ f ∈ r.functions.values, f.wrapperName = none → f.Served signatures

section Housed

variable {signatures : NameMap Signature} {r : Registry}

theorem Housed.empty (patches : Patches) (headers : NameSet) : ({ patches, headers } : Registry).Housed signatures where
  classes c hc := by cases hc
  functions f hf := by cases hf

theorem Housed.mono {new : NameMap Signature} (h : r.Housed signatures) (hcovers : Covers signatures new) :
    r.Housed new :=
  ⟨fun c hc => (h.classes c hc).mono hcovers, fun f hf hwrapper => (h.functions f hf hwrapper).mono hcovers⟩

theorem Housed.appendClass (h : r.Housed signatures) {name : String} {state : Option String}
    (hplain : state.isSome = true → Scope.IsPlain name) (scope source : String) :
    (r.appendClass name scope source state).1.Housed signatures := by
  refine ⟨fun c hc => ?_, h.functions⟩
  rcases mem_appendClass hc with hold | rfl
  · exact h.classes c hold
  · exact .of_members_empty hplain fun kind => by cases kind <;> rfl

theorem Housed.modifyClass (h : r.Housed signatures) (id : ClassId) {f : BoundClass → BoundClass}
    (hf : ∀ c, r.class? id = some c → (f c).Housed signatures) : (r.modifyClass id f).Housed signatures := by
  refine ⟨fun c hc => ?_, h.functions⟩
  obtain ⟨x, hx⟩ := List.mem_iff_getElem?.1 hc
  obtain ⟨old, hold, rfl⟩ := getElem?_modifyClass hx
  split
  · next heq => exact hf old (heq ▸ hold)
  · exact h.classes old (List.mem_of_getElem? hold)

/-- What a registration in place leaves of the members of a class. -/
structure SameMembers (f : BoundClass → BoundClass) : Prop where
  members : ∀ c kind, (f c).members kind = c.members kind
  exposed : ∀ c, (f c).isExposed = c.isExposed

theorem Housed.modifyClass_of_members_eq (h : r.Housed signatures) (id : ClassId) {f : BoundClass → BoundClass}
    (hface : SameFace f) (hf : SameMembers f) : (r.modifyClass id f).Housed signatures := by
  refine h.modifyClass id fun c hc => ?_
  have hold := h.classes c (List.mem_of_getElem? hc)
  refine hold.of_members_eq (hface.id c) (hface.scope c) (hface.name c) (hf.members c) (fun hexposed => ?_)
    fun hexposed => ?_
  · rw [hf.exposed]
    exact hexposed
  · rw [hf.exposed] at hexposed
    rw [hface.name]
    exact hold.plain hexposed

theorem Housed.insertFunction (h : r.Housed signatures) {f : BoundFunction} (key : String)
    (hf : f.wrapperName = none → f.Served signatures) :
    ({ r with functions := r.functions.insert key f } : Registry).Housed signatures := by
  refine ⟨h.classes, fun g hg => ?_⟩
  rcases NameMap.mem_values_insert hg with rfl | hold
  · exact hf
  · exact h.functions g hold

theorem Housed.addThinClass (h : r.Housed signatures) (name scope source : String) :
    (r.addThinClass name scope source).1.Housed signatures := by
  rw [Registry.addThinClass]
  split
  · exact h.appendClass (fun hsome => by cases hsome) scope source
  · exact h

theorem sameMembers_describe (c : DeclaredClass) (luaScope : Option String) :
    SameMembers (Selection.describe c luaScope) :=
  ⟨fun _ kind => by cases kind <;> rfl, fun _ => rfl⟩

theorem sameMembers_makeDefault : SameMembers fun c => { c with hasDefaultConstructor := true } :=
  ⟨fun _ kind => by cases kind <;> rfl, fun _ => rfl⟩

theorem sameMembers_enclose (inner : ClassId) : SameMembers (Selection.enclose inner) := by
  refine ⟨fun c kind => ?_, fun c => ?_⟩
  · rw [Selection.enclose]
    split
    · rfl
    · cases kind <;> rfl
  · rw [Selection.enclose]
    split <;> rfl

/-- An accepted edge leaves members and names. -/
theorem Housed.addBase (h : r.Housed signatures) {derived base : ClassId} {r' : Registry}
    (hadd : r.addBase derived base = .ok r') : r'.Housed signatures := by
  obtain ⟨-, rfl⟩ := addBase_ok hadd
  refine h.modifyClass derived fun c hc => ?_
  have hold := h.classes c (List.mem_of_getElem? hc)
  refine hold.of_members_eq (derive_id base c) (derive_scope base c) (derive_name base c) (derive_members base c)
    (fun hexposed => ?_) fun hexposed => ?_
  · rwa [derive_isExposed]
  · rw [derive_isExposed] at hexposed
    rw [derive_name]
    exact hold.plain hexposed

/-- A class that is exposed under a plain name. -/
theorem Housed.addClass (h : r.Housed signatures) (hregular : r.Regular) {name scope source state : String}
    (hscope : Scope.IsNormal scope) (hname : Scope.IsPlain name) {r' : Registry} {id : ClassId}
    (hadd : r.addClass name scope source state = .ok (r', id)) : r'.Housed signatures := by
  obtain ⟨-, rfl, -⟩ | ⟨found, hfind, -, rfl, -⟩ := addClass_cases hadd
  · exact h.appendClass (fun _ => hname) scope source
  · refine h.modifyClass found.id fun c hc => ?_
    have hmem := mem_of_find? hfind
    obtain rfl : c = found := Option.some.inj (hc.symm.trans (hregular.class?_eq hmem))
    have hsame := hregular.eq_of_find? (.of_isPlain hscope hname) hfind
    refine (h.classes c hmem).of_members_eq rfl rfl rfl (fun kind => by cases kind <;> rfl) (fun _ => rfl)
      fun _ => ?_
    rw [← hsame.2] at hname
    exact hname

end Housed

end Registry

end LuaGlue
