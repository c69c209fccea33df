import LuaGlue.Proofs.ClassTable
import LuaGlue.Proofs.Selection.Changes

/-!
What the registry of a run is made of.

Functions come into it with a first overload, unless a native wrapper stands for them; members have a
native wrapper only if they are redirected, and constructors never are; a function type is recorded
under a name, so it has one. Every change keeps this (`Stocked.change`).
-/

namespace LuaGlue

open Selection

/-- A member that is not redirected has overloads and no native wrapper. -/
def BoundFunction.IsDirect (f : BoundFunction) : Prop :=
  f.isRedirector = false → f.wrapperName = none ∧ f.overloads ≠ []

theorem BoundFunction.addOverload_eq_ok {f g : BoundFunction} {o : Overload} (h : f.addOverload o = .ok g) :
    g = { f with overloads := f.overloads ++ [o] } := by
  unfold addOverload at h
  split at h
  · cases h
  · exact (Except.ok.inj h).symm

namespace BoundClass

/-- The members of a class as a run makes them. -/
structure Stocked (c : BoundClass) : Prop where
  direct : ∀ kind ≠ MemberKind.metamethod, ∀ f ∈ (c.members kind).values, f.IsDirect
  constructed : ∀ f ∈ c.constructors.values, f.isRedirector = false

theorem Stocked.of_members_eq {c d : BoundClass} (h : c.Stocked) (hmembers : ∀ kind, d.members kind = c.members kind) :
    d.Stocked := by
  refine ⟨fun kind hkind f hf => ?_, fun f hf => ?_⟩
  · rw [hmembers] at hf
    exact h.direct kind hkind f hf
  · have hconstructors : d.constructors = c.constructors := hmembers .constructor
    rw [hconstructors] at hf
    exact h.constructed f hf

theorem Stocked.of_members_empty {c : BoundClass} (h : ∀ kind, c.members kind = ∅) : c.Stocked := by
  have hnone : ∀ kind f, f ∉ (c.members kind).values := by
    intro kind f hf
    rw [h] at hf
    cases hf
  exact ⟨fun kind _ f hf => absurd hf (hnone kind f), fun f hf => absurd hf (hnone .constructor f)⟩

/-- One more member, or another one of the same name. -/
theorem Stocked.insert {c : BoundClass} (h : c.Stocked) {kind : MemberKind} {f : BoundFunction} (key : String)
    (hdirect : kind ≠ .metamethod → f.IsDirect) (hconstructed : kind = .constructor → f.isRedirector = false) :
    (c.withMembers kind ((c.members kind).insert key f)).Stocked := by
  refine ⟨fun other hother g hg => ?_, fun g hg => ?_⟩
  · rw [members_withMembers] at hg
    split at hg
    · next heq =>
      subst heq
      rcases NameMap.mem_values_insert hg with rfl | hold
      · exact hdirect hother
      · exact h.direct other hother g hold
    · exact h.direct other hother g hg
  · have hmembers : g ∈ ((c.withMembers kind ((c.members kind).insert key f)).members .constructor).values := hg
    rw [members_withMembers] at hmembers
    split at hmembers
    · next heq =>
      subst heq
      rcases NameMap.mem_values_insert hmembers with rfl | hold
      · exact hconstructed rfl
      · exact h.constructed g hold
    · exact h.constructed g hmembers

end BoundClass

namespace Registry

/-- The contents of a registry as a run makes them. -/
structure Stocked (r : Registry) : Prop where
  placed : r.Placed
  classes : ∀ c ∈ r.classes, c.Stocked
  functions : ∀ f ∈ r.functions.values, f.wrapperName = none → f.overloads ≠ []
  signatures : ∀ s ∈ r.signatures.values, ∃ key, s.wrapperName = .ok key

theorem Stocked.empty (patches : Patches) (headers : NameSet) : ({ patches, headers } : Registry).Stocked where
  placed id c hc := by simp at hc
  classes := by simp
  functions f hf := by cases hf
  signatures s hs := by cases hs

theorem Stocked.appendClass {r : Registry} (h : r.Stocked) (name scope source : String) (state : Option String) :
    (r.appendClass name scope source state).1.Stocked where
  placed := h.placed.appendClass name scope source state
  classes c hc := by
    rcases mem_appendClass hc with hold | rfl
    · exact h.classes c hold
    · exact .of_members_empty fun kind => by cases kind <;> rfl
  functions := h.functions
  signatures := h.signatures

theorem Stocked.modifyClass {r : Registry} (h : r.Stocked) (id : ClassId) {f : BoundClass → BoundClass}
    (hid : ∀ c, (f c).id = c.id) (hf : ∀ c, r.class? id = some c → (f c).Stocked) :
    (r.modifyClass id f).Stocked where
  placed := h.placed.modifyClass id hid
  classes c hc := by
    obtain ⟨x, hx⟩ := List.mem_iff_getElem?.1 hc
    obtain ⟨old, hold, rfl⟩ := getElem?_modifyClass hx
    split
    · next heq => exact hf old (heq ▸ hold)
    · exact h.classes old (List.mem_of_getElem? hold)
  functions := h.functions
  signatures := h.signatures

/-- A class that is changed without its members. -/
theorem Stocked.modifyClass_of_members_eq {r : Registry} (h : r.Stocked) (id : ClassId)
    {f : BoundClass → BoundClass} (hid : ∀ c, (f c).id = c.id)
    (hmembers : ∀ c kind, (f c).members kind = c.members kind) : (r.modifyClass id f).Stocked :=
  h.modifyClass id hid fun c hc => (h.classes c (List.mem_of_getElem? hc)).of_members_eq (hmembers c)

theorem Stocked.insertFunction {r : Registry} (h : r.Stocked) {f : BoundFunction} (key : String)
    (hf : f.wrapperName = none → f.overloads ≠ []) :
    ({ r with functions := r.functions.insert key f } : Registry).Stocked where
  placed := h.placed
  classes := h.classes
  functions g hg := by
    rcases NameMap.mem_values_insert hg with rfl | hold
    · exact hf
    · exact h.functions g hold
  signatures := h.signatures

theorem Stocked.addSignature {r : Registry} (h : r.Stocked) {s : Signature} {key : String}
    (hname : s.wrapperName = .ok key) : (r.addSignature key s).Stocked := by
  rw [Registry.addSignature]
  split
  · exact h
  · refine ⟨h.placed, h.classes, h.functions, fun t ht => ?_⟩
    rcases NameMap.mem_values_insert ht with rfl | hold
    · exact ⟨key, hname⟩
    · exact h.signatures t hold

/-- What a member is before it takes an overload: one that is there, or a new one. -/
theorem Stocked.isDirect_extended {r : Registry} (h : r.Stocked) {id : ClassId} {c : BoundClass}
    (hc : r.class? id = some c) {f : DeclaredFunction} {o : Overload} {result : CxxType} {m : BoundFunction}
    (hadd : (((c.members (kindOf f)).get? f.name).getD (newMember c f result)).addOverload o = .ok m) :
    m.IsDirect ∧ (kindOf f = .constructor → m.isRedirector = false) := by
  have hkind : kindOf f ≠ .metamethod := by
    rw [kindOf]
    split
    · simp
    · split <;> simp
  have hstocked := h.classes c (List.mem_of_getElem? hc)
  rw [BoundFunction.addOverload_eq_ok hadd]
  cases hold : (c.members (kindOf f)).get? f.name with
  | none => exact ⟨fun _ => ⟨rfl, by simp⟩, fun _ => rfl⟩
  | some old =>
    have hmem := NameMap.mem_values_of_get? hold
    refine ⟨fun hredirector => ⟨(hstocked.direct _ hkind old hmem hredirector).1, by simp⟩, fun hconstructor => ?_⟩
    rw [hconstructor] at hmem
    exact hstocked.constructed old hmem

theorem Stocked.change {r r' : Registry} (hchange : Change r r') (h : r.Stocked) : r'.Stocked := by
  cases hchange with
  | mapTemplate source target => exact ⟨h.placed, h.classes, h.functions, h.signatures⟩
  | wrap hname => exact h.addSignature hname
  | expose hadd =>
    obtain ⟨-, rfl, -⟩ | ⟨c, -, -, rfl, -⟩ := addClass_cases hadd
    · exact h.appendClass ..
    · exact h.modifyClass_of_members_eq _ (fun _ => rfl) fun _ kind => by cases kind <;> rfl
  | addThin name scope source =>
    rw [Registry.addThinClass]
    split
    · exact h.appendClass ..
    · exact h
  | describe id c luaScope =>
    exact h.modifyClass_of_members_eq id (fun _ => rfl) fun _ kind => by cases kind <;> rfl
  | derive _ hadd =>
    obtain ⟨-, rfl⟩ := addBase_ok hadd
    exact h.modifyClass_of_members_eq _ (derive_id _) (derive_members _)
  | nest scope id =>
    obtain hsame | ⟨outer, hnested⟩ := nestClass_cases r scope id
    · rwa [hsame]
    · rw [hnested]
      refine h.modifyClass_of_members_eq _ (fun c => ?_) fun c kind => ?_
      · rw [enclose]
        split <;> rfl
      · rw [enclose]
        split
        · rfl
        · cases kind <;> rfl
  | makeDefault id => exact h.modifyClass_of_members_eq id (fun _ => rfl) fun _ kind => by cases kind <;> rfl
  | extendMember hc hadd =>
    obtain ⟨hdirect, hconstructed⟩ := h.isDirect_extended hc hadd
    refine h.modifyClass _ (fun _ => by simp) fun d hd => ?_
    obtain rfl := Option.some.inj (hc.symm.trans hd)
    exact (h.classes _ (List.mem_of_getElem? hc)).insert _ (fun _ => hdirect) hconstructed
  | extendFunction hadd =>
    refine h.insertFunction _ fun _ => ?_
    rw [BoundFunction.addOverload_eq_ok hadd]
    simp
  | bindWrapper f request name =>
    unfold addCustomName
    simp only
    split
    · exact h
    · exact h.insertFunction _ fun hnone => by cases hnone
  | enter hadd =>
    obtain ⟨-, rfl⟩ := addEnum_ok hadd
    exact ⟨h.placed, h.classes, h.functions, h.signatures⟩
  | redirect c request wrapper source =>
    refine h.modifyClass _ (fun _ => by simp) fun d hd => ?_
    refine (h.classes d (List.mem_of_getElem? hd)).insert _ (fun _ hfalse => by cases hfalse) fun hkind => ?_
    split at hkind <;> cases hkind
  | implement c name wrapper source =>
    refine h.modifyClass _ (fun _ => by simp) fun d hd => ?_
    exact (h.classes d (List.mem_of_getElem? hd)).insert _ (fun hkind => absurd rfl hkind) fun hkind => by cases hkind
  | includeHeader header => exact ⟨h.placed, h.classes, h.functions, h.signatures⟩

theorem Stocked.changes {r r' : Registry} (h : r.Stocked) (hchanges : Changes r r') : r'.Stocked :=
  hchanges.keeps Stocked.change h

end Registry

end LuaGlue
