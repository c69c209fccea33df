import LuaGlue.Proofs.Attachment.Waiting

/-!
Classes before native wrappers are attached.

Until then every member is generated: a member that is redirected is left out when it is met, because the first
pass has heard of the redirection by then. And every class that is exposed is on the list of the run, which is
where a wrapper looks for its class. `Selection.Tidy owner` says both, and that the current class is the one
whose members come next.

    start ──learn──▶ ── .. ──register──▶ ── .. ──bases──▶ ▪        Tidy at every arrow
-/

namespace LuaGlue

open Selection

/-- A class as declarations make it: on the list if it is exposed, with members that are generated, and with none
that is redirected. -/
structure BoundClass.Tidy (exposed : List ClassId) (requests : Requests) (c : BoundClass) : Prop where
  listed : c.isExposed = true → c.id ∈ exposed
  generated : ∀ kind name f, (c.members kind).get? name = some f →
    f.wrapperName = none ∧ requests.isRedirected c.qualified name = false

namespace BoundClass

variable {exposed : List ClassId} {requests : Requests} {c d : BoundClass}

/-- A class that keeps its name and its members. -/
theorem Tidy.of_members_eq (h : c.Tidy exposed requests) (hqualified : d.qualified = c.qualified)
    (hmembers : ∀ kind, d.members kind = c.members kind) (hlisted : d.isExposed = true → d.id ∈ exposed) :
    d.Tidy exposed requests := by
  refine ⟨hlisted, fun kind name f hf => ?_⟩
  rw [hmembers] at hf
  rw [hqualified]
  exact h.generated kind name f hf

theorem Tidy.of_members_empty (hmembers : ∀ kind, c.members kind = ∅)
    (hlisted : c.isExposed = true → c.id ∈ exposed) : c.Tidy exposed requests := by
  refine ⟨hlisted, fun kind name f hf => ?_⟩
  rw [hmembers, NameMap.get?_empty] at hf
  cases hf

/-- One more member, or another one of the same name. -/
theorem Tidy.insert (h : c.Tidy exposed requests) (kind : MemberKind) {name : String} {f : BoundFunction}
    (hwrapper : f.wrapperName = none) (hdirect : requests.isRedirected c.qualified name = false) :
    (c.withMembers kind ((c.members kind).insert name f)).Tidy exposed requests := by
  refine ⟨fun hexposed => ?_, fun other key g hg => ?_⟩
  · rw [isExposed_withMembers] at hexposed
    rw [id_withMembers]
    exact h.listed hexposed
  · rw [(Registry.sameFace_withMembers kind fun _ => _).qualified]
    rw [members_withMembers] at hg
    split at hg
    · next hkind =>
      rw [NameMap.get?_insert] at hg
      split at hg
      · next hkey =>
        cases hg
        subst hkey
        exact ⟨hwrapper, hdirect⟩
      · exact h.generated kind key g hg
    · exact h.generated other key g hg

end BoundClass

namespace Registry

/-- Classes as declarations make them. -/
structure Tidy (exposed : List ClassId) (requests : Requests) (r : Registry) : Prop where
  placed : r.Placed
  classes : ∀ c ∈ r.classes, c.Tidy exposed requests

section Tidy

variable {exposed : List ClassId} {requests : Requests} {r r' : Registry}

theorem Tidy.of_classes_eq (h : r.Tidy exposed requests) (heq : r'.classes = r.classes) :
    r'.Tidy exposed requests := by
  refine ⟨?_, ?_⟩
  · rw [Placed, heq]
    exact h.placed
  · rw [heq]
    exact h.classes

/-- The list grows. -/
theorem Tidy.mono (h : r.Tidy exposed requests) {more : List ClassId} (hmore : exposed ⊆ more) :
    r.Tidy more requests :=
  ⟨h.placed, fun c hc => ⟨fun hexposed => hmore ((h.classes c hc).listed hexposed), (h.classes c hc).generated⟩⟩

theorem Tidy.appendClass (h : r.Tidy exposed requests) (name scope source : String) {state : Option String}
    (hlisted : state.isSome = true → r.classes.length ∈ exposed) :
    (r.appendClass name scope source state).1.Tidy exposed requests := by
  refine ⟨h.placed.appendClass name scope source state, fun c hc => ?_⟩
  rcases mem_appendClass hc with hold | rfl
  · exact h.classes c hold
  · exact .of_members_empty (fun kind => by cases kind <;> rfl) hlisted

theorem Tidy.modifyClass (h : r.Tidy exposed requests) (id : ClassId) {f : BoundClass → BoundClass}
    (hid : ∀ c, (f c).id = c.id) (hf : ∀ c, r.class? id = some c → (f c).Tidy exposed requests) :
    (r.modifyClass id f).Tidy exposed requests := by
  refine ⟨h.placed.modifyClass id hid, fun c hc => ?_⟩
  obtain ⟨x, hx⟩ := List.mem_iff_getElem?.1 hc
  obtain ⟨old, hold, rfl⟩ := getElem?_modifyClass hx
  split
  · next heq => exact hf old (heq ▸ hold)
  · exact h.classes old (List.mem_of_getElem? hold)

/-- A class that is changed without its name and its members. -/
theorem Tidy.modifyClass_of_members_eq (h : r.Tidy exposed requests) (id : ClassId) {f : BoundClass → BoundClass}
    (hface : SameFace f) (hf : SameMembers f) : (r.modifyClass id f).Tidy exposed requests := by
  refine h.modifyClass id hface.id fun c hc => ?_
  have hold := h.classes c (List.mem_of_getElem? hc)
  refine hold.of_members_eq (hface.qualified c) (hf.members c) fun hexposed => ?_
  rw [hf.exposed] at hexposed
  rw [hface.id]
  exact hold.listed hexposed

theorem Tidy.addThinClass (h : r.Tidy exposed requests) (name scope source : String) :
    (r.addThinClass name scope source).1.Tidy exposed requests := by
  rw [Registry.addThinClass]
  split
  · exact h.appendClass name scope source fun hexposed => Bool.noConfusion hexposed
  · exact h

/-- A class that is exposed gets on the list. -/
theorem Tidy.addClass (h : r.Tidy exposed requests) {name scope source state : String} {id : ClassId}
    (hadd : r.addClass name scope source state = .ok (r', id)) : r'.Tidy (exposed ++ [id]) requests := by
  have hmore := h.mono (List.subset_append_left exposed [id])
  obtain ⟨-, rfl, rfl⟩ | ⟨found, -, -, rfl, rfl⟩ := addClass_cases hadd
  · exact hmore.appendClass name scope source fun _ => List.mem_append_right _ List.mem_cons_self
  · refine hmore.modifyClass found.id (fun _ => rfl) fun c hc => ?_
    refine (hmore.classes c (List.mem_of_getElem? hc)).of_members_eq rfl (fun kind => by cases kind <;> rfl)
      fun _ => List.mem_append_right _ ?_
    rw [List.mem_singleton]
    exact h.placed found.id c hc

theorem Tidy.addBase (h : r.Tidy exposed requests) {derived base : ClassId}
    (hadd : r.addBase derived base = .ok r') : r'.Tidy exposed requests := by
  obtain ⟨-, rfl⟩ := addBase_ok hadd
  refine h.modifyClass derived (derive_id base) fun c hc => ?_
  have hold := h.classes c (List.mem_of_getElem? hc)
  refine hold.of_members_eq (derive_qualified base c) (derive_members base c) fun hexposed => ?_
  rw [derive_isExposed] at hexposed
  rw [derive_id]
  exact hold.listed hexposed

theorem Tidy.addBaseNamed (h : r.Tidy exposed requests) (id : ClassId) (base : String) :
    (Selection.addBaseNamed r id base).1.Tidy exposed requests := by
  have hthin := h.addThinClass (Scope.splitQualified base).2 (Scope.splitQualified base).1 ""
  exact keeps_addBaseNamed id base hthin hthin.addBase

theorem Tidy.addBasesNamed (h : r.Tidy exposed requests) (id : ClassId) (bases : List String) :
    (Selection.addBasesNamed r id bases).1.Tidy exposed requests :=
  keeps_addBasesNamed (fun _ base h => h.addBaseNamed id base) h bases

theorem Tidy.nestClass (h : r.Tidy exposed requests) (scope : String) (id : ClassId) :
    (Selection.nestClass r scope id).Tidy exposed requests := by
  obtain hsame | ⟨outer, hnested⟩ := nestClass_cases r scope id
  · rwa [hsame]
  · rw [hnested]
    exact h.modifyClass_of_members_eq outer (sameFace_enclose id) (sameMembers_enclose id)

end Tidy

/-- Has the class of this id the name of the owner? -/
def IsNamed (r : Registry) (owner : Option (String × String)) (id : ClassId) : Prop :=
  ∃ c o, r.class? id = some c ∧ owner = some o ∧ c.qualified = Scope.qualify o.1 o.2

theorem IsNamed.retains {r r' : Registry} {owner : Option (String × String)} {id : ClassId}
    (h : r.IsNamed owner id) (hretains : Retains r r') : r'.IsNamed owner id := by
  obtain ⟨c, o, hc, howner, hqualified⟩ := h
  obtain ⟨d, hd, hscope, hname, -⟩ := hretains id c hc
  refine ⟨d, o, hd, howner, ?_⟩
  rw [← hqualified, BoundClass.qualified, BoundClass.qualified, hscope, hname]

theorem isNamed_addClass {r r' : Registry} (h : r.Placed) {name scope source state : String} {id : ClassId}
    (hadd : r.addClass name scope source state = .ok (r', id)) : r'.IsNamed (some (scope, name)) id := by
  obtain ⟨-, rfl, rfl⟩ | ⟨found, hfind, -, rfl, rfl⟩ := addClass_cases hadd
  · exact ⟨_, _, List.getElem?_concat_length, rfl, rfl⟩
  · have hfound : r.class? found.id = some found := h.getElem? (mem_of_find? hfind)
    have hqualified : found.qualified = Scope.qualify scope name := qualified_of_find? hfind
    refine ⟨expose source state found, _, ?_, rfl, hqualified⟩
    rw [getElem?_modifyClass_eq, hfound]
    simp

end Registry

namespace Selection

open Registry

/-- What holds of the state while declarations are registered; the members that come next are those of `owner`. -/
structure Tidy (owner : Option (String × String)) (s : Selection) : Prop where
  registry : s.registry.Tidy s.exposed s.requests
  current : ∀ id, s.current = some id → s.registry.IsNamed owner id

section Tidy

variable {owner : Option (String × String)} {s : Selection}

/-- Before the first declaration there is no class, and the first pass adds none. -/
theorem Tidy.learnAll (patches : Patches) (headers : NameSet)
    (stream : List (Except DeclarationError Declaration)) :
    ((start { patches, headers }).learnAll stream).1.Tidy none := by
  obtain ⟨templates, known, requests, notices, heq⟩ := learnAll_rest (start { patches, headers }) stream
  rw [heq]
  exact ⟨⟨nofun, nofun⟩, nofun⟩

/-! ### Classes -/

theorem Tidy.placeClass (h : s.Tidy owner) (c : DeclaredClass) :
    (s.placeClass c).1.Tidy (some (c.scope, c.name))
      ∧ ∀ id, (s.placeClass c).2 = some id → id < (s.placeClass c).1.registry.classes.length := by
  rw [Selection.placeClass]
  simp only
  split
  · refine ⟨⟨h.registry.addThinClass c.name c.scope c.source, fun id hid => ?_⟩, fun id hid => ?_⟩ <;> cases hid
    exact id_addThinClass_lt h.registry.placed c.name c.scope c.source
  · next state luaScope _ =>
    split
    · refine ⟨⟨h.registry, fun id hid => ?_⟩, fun id hid => ?_⟩ <;> cases hid
    · next registry id hadd =>
      have hface := sameFace_describe c luaScope
      have hclass := h.registry.addClass hadd
      have hnamed := (isNamed_addClass h.registry.placed hadd).retains
        (retains_modifyClass registry id hface.scope hface.name fun _ hexposed => hexposed)
      refine ⟨⟨hclass.modifyClass_of_members_eq id hface (sameMembers_describe c luaScope), fun other hother => ?_⟩,
        fun other hother => ?_⟩
      · cases hother
        exact hnamed
      · cases hother
        obtain ⟨d, -, hd, -⟩ := hnamed
        exact (List.getElem?_eq_some_iff.1 hd).1

/-- A class may come next, and what follows it are its members. -/
theorem Tidy.registerClass (h : s.Tidy owner) (c : DeclaredClass) :
    (s.registerClass c).1.Tidy (some (c.scope, c.name)) := by
  obtain ⟨hplaced, hid⟩ := h.placeClass c
  rw [Selection.registerClass]
  split
  · next t heq =>
    rw [heq] at hplaced
    exact hplaced
  · next t id heq =>
    rw [heq] at hplaced hid
    have hbases := hplaced.registry.addBasesNamed id c.bases
    have hretains := (grows_addBasesNamed t.registry (hid id rfl) c.bases).retains
    split
    · next registry abort hadd =>
      rw [hadd] at hbases hretains
      exact ⟨hbases, fun other hother => (hplaced.current other hother).retains hretains⟩
    · next registry hadd =>
      rw [hadd] at hbases hretains
      have hnested := (grows_nestClass registry c.scope id).retains
      exact ⟨hbases.nestClass c.scope id,
        fun other hother => (hplaced.current other hother).retains (hretains.trans hnested)⟩

/-! ### Members -/

/-- A member of the current class that is not redirected. -/
theorem Tidy.addMember (h : s.Tidy owner) {id : ClassId} {f : DeclaredFunction} (o : Overload) (result : CxxType)
    (hnamed : ∀ c, s.registry.class? id = some c → c.qualified = f.scope)
    (hdirect : s.requests.isRedirected f.scope f.name = false) : (s.addMember id f o result).Tidy owner := by
  rw [Selection.addMember]
  split
  · exact h
  · next c hc =>
    simp only
    split
    · next m hadd =>
      have hface := sameFace_withMembers (kindOf f) fun _ => (c.members (kindOf f)).insert f.name m
      have hretains := retains_modifyClass s.registry id hface.scope hface.name fun d hd => by
        rw [isExposed_withMembers]
        exact hd
      have hclass := h.registry.classes c (List.mem_of_getElem? hc)
      have hwrapper : m.wrapperName = none := by
        rw [BoundFunction.addOverload_eq_ok hadd]
        cases hold : (c.members (kindOf f)).get? f.name with
        | none => rfl
        | some old => exact (hclass.generated _ _ old hold).1
      have hmember : (s.registry.modifyClass id fun d =>
          d.withMembers (kindOf f) ((c.members (kindOf f)).insert f.name m)).Tidy s.exposed s.requests := by
        refine h.registry.modifyClass id hface.id fun d hd => ?_
        obtain rfl : c = d := Option.some.inj (hc.symm.trans hd)
        exact hclass.insert (kindOf f) hwrapper (hnamed c hc ▸ hdirect)
      obtain ⟨hrest, hregistry⟩ := (wrapAll_spec (s.modifyClass id fun d =>
        d.withMembers (kindOf f) ((c.members (kindOf f)).insert f.name m)) o result).1
      rw [hrest, hregistry.rest]
      exact ⟨hmember.of_classes_eq rfl,
        fun other hother => ((h.current other hother).retains hretains).retains (retains_of_classes_eq rfl)⟩
    · exact ⟨h.registry, h.current⟩

/-- The next member of the class that members are registered for. -/
theorem Tidy.registerMember (h : s.Tidy owner) {f : DeclaredFunction} (hfollows : (Declaration.function f).Follows owner)
    (hmember : f.owner.isSome = true) : (s.registerMember f).Tidy owner := by
  obtain ⟨o, ho⟩ := Option.isSome_iff_exists.1 hmember
  obtain ⟨howner, hscope⟩ := hfollows o ho
  rw [Selection.registerMember]
  split
  · exact ⟨h.registry, h.current⟩
  · next id hid =>
    split
    · have hface := sameFace_makeDefault
      refine ⟨h.registry.modifyClass_of_members_eq id hface sameMembers_makeDefault, fun other hother => ?_⟩
      exact (h.current other hother).retains (retains_modifyClass s.registry id hface.scope hface.name fun _ hc => hc)
    · split
      · exact ⟨h.registry, h.current⟩
      · split
        · exact ⟨h.registry, h.current⟩
        · next hdirect =>
          rw [withSignature]
          split
          · exact ⟨h.registry, h.current⟩
          · refine h.addMember _ _ (fun c hc => ?_) (by simpa using hdirect)
            obtain ⟨d, owner', hd, howner', hqualified⟩ := h.current id hid
            obtain rfl : c = d := Option.some.inj (hc.symm.trans hd)
            cases howner.symm.trans howner'
            rw [hqualified, hscope]

/-! ### Functions and enums -/

theorem Tidy.registerFunction (h : s.Tidy owner) (f : DeclaredFunction) : (s.registerFunction f).Tidy owner := by
  obtain ⟨functions, signatures, redirectors, metamethods, states, skipped, notices, heq⟩ := registerFunction_rest s f
  rw [heq]
  exact ⟨h.registry.of_classes_eq rfl, fun id hid => (h.current id hid).retains (retains_of_classes_eq rfl)⟩

theorem Tidy.registerEnum (h : s.Tidy owner) (e : DeclaredEnum) : (s.registerEnum e).Tidy owner := by
  rw [Selection.registerEnum]
  split
  · exact ⟨h.registry, h.current⟩
  · split
    · next hadd =>
      obtain ⟨-, rfl⟩ := addEnum_ok hadd
      exact ⟨h.registry.of_classes_eq rfl, fun id hid => (h.current id hid).retains (retains_of_classes_eq rfl)⟩
    · exact ⟨h.registry, h.current⟩

/-! ### The second pass, and the bases -/

theorem Tidy.register (h : s.Tidy owner) {d : Declaration} (hfollows : d.Follows owner) :
    (s.register d).1.Tidy (d.ownerAfter owner) := by
  cases d with
  | remark => exact h
  | record c => exact h.registerClass c
  | function f =>
    rw [Selection.register]
    simp only
    split
    · next hmember => exact h.registerMember hfollows hmember
    · exact h.registerFunction f
  | enum e => exact h.registerEnum e

theorem Tidy.registerAll (h : s.Tidy owner) {stream : List (Except DeclarationError Declaration)}
    (horder : DeclarationSource.InOrder owner stream) : ∃ owner, (s.registerAll stream).1.Tidy owner :=
  inOrder_induction (fun _ hfollows h => h.register hfollows) h horder

theorem tidy_addRequestedBases (s : Selection) (h : s.registry.Tidy s.exposed s.requests)
    (bases : List (String × String)) :
    (s.addRequestedBases bases).1.registry.Tidy s.exposed s.requests
      ∧ (s.addRequestedBases bases).1.exposed = s.exposed := by
  refine addRequestedBases_induction
    (P := fun t => t.registry.Tidy s.exposed s.requests ∧ t.exposed = s.exposed) ?_ ⟨h, rfl⟩ bases
  rintro t derived base ⟨htidy, hexposed⟩
  rw [addRequestedBase]
  simp only
  split
  · exact ⟨htidy, hexposed⟩
  · exact ⟨htidy.addBaseNamed _ base, hexposed⟩

end Tidy

end Selection

end LuaGlue
