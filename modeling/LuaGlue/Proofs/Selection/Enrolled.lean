import LuaGlue.Proofs.Emission.Types
import LuaGlue.Proofs.Selection.Settled
import LuaGlue.Proofs.Selection.Unmoved

/-!
Members and the classes that declare them.

A member is registered for the current class, whatever class it names itself. The two agree: a class that is exposed
is current until the next one, and a class that is thin or refused leaves no class current. So a class has only
members that are declared under it (`BoundClass.Enrolled`), and one that is not exposed has none.

    class A exposed      A's members ──▶ A
    class A once more    A's members ──▶ nowhere
    class B thin         B's members ──▶ nowhere
-/

namespace LuaGlue

open Selection

/-! ### Members under their classes -/

section Enrolled

/-! `read` says which declared functions there are, and the overload as which each is read. -/

variable {read : DeclaredFunction → Overload → Prop}

/-- A member as the declarations under its class make it. -/
structure BoundClass.Enrolls (read : DeclaredFunction → Overload → Prop) (c : BoundClass) (kind : MemberKind)
    (key : String) (f : BoundFunction) : Prop where
  name : f.name = key
  isConstructor : f.isConstructor = true ↔ kind = .constructor
  taken : f.overloads ≠ []
  declared : ∀ o ∈ f.overloads, ∃ d, read d o ∧ d.owner = some (c.scope, c.name) ∧ d.name = key ∧ kindOf d = kind

/-- A class with members that are declared under it, but for those that are redirected; and with none unless it is
exposed. -/
structure BoundClass.Enrolled (read : DeclaredFunction → Overload → Prop) (c : BoundClass) : Prop where
  hidden : c.isExposed = false → ∀ kind, c.members kind = ∅
  members : ∀ kind key f, (c.members kind).get? key = some f → f.isRedirector = false → c.Enrolls read kind key f

namespace BoundClass

variable {c d : BoundClass}

theorem Enrolled.of_members_empty (h : ∀ kind, c.members kind = ∅) : c.Enrolled read := by
  refine ⟨fun _ => h, fun kind key f hf => ?_⟩
  rw [h, NameMap.get?_empty] at hf
  cases hf

theorem Enrolled.sameRoster (h : c.Enrolled read) (hsame : c.SameRoster d) : d.Enrolled read := by
  refine ⟨fun hhidden kind => ?_, fun kind key f hf hdirect => ?_⟩
  · have hold : c.isExposed = false :=
      Bool.eq_false_iff.2 fun hexposed => absurd ((hsame.exposed hexposed).symm.trans hhidden) nofun
    rw [hsame.members, h.hidden hold]
  · rw [hsame.members] at hf
    obtain ⟨hname, hconstructor, htaken, hdeclared⟩ := h.members kind key f hf hdirect
    refine ⟨hname, hconstructor, htaken, fun o ho => ?_⟩
    rw [hsame.scope, hsame.name]
    exact hdeclared o ho

/-- Other members of a kind, of a class that is exposed if it is given any. -/
theorem Enrolled.withMembers (h : c.Enrolled read) {kind : MemberKind} {functions : Functions}
    (hhidden : c.isExposed = false → functions = ∅)
    (hmembers : ∀ key f, functions.get? key = some f → f.isRedirector = false → c.Enrolls read kind key f) :
    (c.withMembers kind functions).Enrolled read := by
  have hface := Registry.sameFace_withMembers kind fun _ => functions
  refine ⟨fun hexposed other => ?_, fun other key f hf hdirect => ?_⟩
  · rw [isExposed_withMembers] at hexposed
    rw [members_withMembers]
    split
    · exact hhidden hexposed
    · exact h.hidden hexposed other
  · rw [members_withMembers] at hf
    have hold : c.Enrolls read other key f := by
      split at hf
      · next heq =>
        rw [heq]
        exact hmembers key f hf hdirect
      · exact h.members other key f hf hdirect
    refine ⟨hold.name, hold.isConstructor, hold.taken, fun o ho => ?_⟩
    rw [hface.scope c, hface.name c]
    exact hold.declared o ho

/-- One more member of an exposed class, or another one of the same name. -/
theorem Enrolled.insert (h : c.Enrolled read) (hexposed : c.isExposed = true) {kind : MemberKind} {key : String}
    {f : BoundFunction} (hf : f.isRedirector = false → c.Enrolls read kind key f) :
    (c.withMembers kind ((c.members kind).insert key f)).Enrolled read := by
  refine h.withMembers (fun hhidden => absurd (hexposed.symm.trans hhidden) nofun) fun other g hg hdirect => ?_
  rw [NameMap.get?_insert] at hg
  split at hg
  · next heq =>
    cases hg
    rw [heq]
    exact hf hdirect
  · exact h.members kind other g hg hdirect

/-- Fewer members of a kind. -/
theorem Enrolled.eraseAll (h : c.Enrolled read) (kind : MemberKind) (keys : List String) :
    (c.withMembers kind (keys.foldl NameMap.erase (c.members kind))).Enrolled read := by
  refine h.withMembers (fun hhidden => ?_) fun key f hf hdirect => ?_
  · refine NameMap.ext_get? fun key => ?_
    rw [NameMap.get?_eraseAll, h.hidden hhidden]
    split <;> rfl
  · rw [NameMap.get?_eraseAll] at hf
    split at hf
    · cases hf
    · exact h.members kind key f hf hdirect

/-- What takes one more overload is a new member, or one that is there. -/
theorem Enrolled.extend (h : c.Enrolled read) {f : DeclaredFunction} {o : Overload} {result : CxxType}
    {m : BoundFunction} (hread : read f o) (howner : f.owner = some (c.scope, c.name))
    (hadd : (((c.members (kindOf f)).get? f.name).getD (newMember c f result)).addOverload o = .ok m)
    (hdirect : m.isRedirector = false) : c.Enrolls read (kindOf f) f.name m := by
  rw [BoundFunction.addOverload_eq_ok hadd] at hdirect ⊢
  have hnew : ∃ d, read d o ∧ d.owner = some (c.scope, c.name) ∧ d.name = f.name ∧ kindOf d = kindOf f :=
    ⟨f, hread, howner, rfl, rfl⟩
  cases hold : (c.members (kindOf f)).get? f.name with
  | none =>
    refine ⟨rfl, ?_, by simp, fun other hother => ?_⟩
    · change f.isConstructor = true ↔ kindOf f = .constructor
      rw [kindOf]
      cases f.isConstructor <;> cases f.isStatic <;> simp
    · obtain rfl : other = o := List.mem_singleton.1 hother
      exact hnew
  | some old =>
    rw [hold] at hdirect
    obtain ⟨hname, hconstructor, -, hdeclared⟩ := h.members _ _ old hold hdirect
    refine ⟨hname, hconstructor, by simp, fun other hother => ?_⟩
    rcases List.mem_append.1 hother with hmem | hmem
    · exact hdeclared other hmem
    · obtain rfl : other = o := List.mem_singleton.1 hmem
      exact hnew

end BoundClass

namespace Registry

/-- Has every class the members that are declared under it, and no others? -/
def Enrolled (read : DeclaredFunction → Overload → Prop) (r : Registry) : Prop :=
  ∀ id c, r.class? id = some c → c.Enrolled read

variable {r r' : Registry}

theorem Enrolled.unmoved (h : r.Enrolled read) (hunmoved : Unmoved (fun _ => True) r r') : r'.Enrolled read := by
  intro id d hd
  obtain ⟨hnone, -⟩ | ⟨c, hc, hsame, -⟩ := hunmoved id d hd
  · exact .of_members_empty hnone
  · exact (h id c hc).sameRoster hsame

theorem Enrolled.modifyClass (h : r.Enrolled read) (id : ClassId) {f : BoundClass → BoundClass}
    (hf : ∀ c, r.class? id = some c → (f c).Enrolled read) : (r.modifyClass id f).Enrolled read := by
  intro other d hd
  obtain ⟨c, hc, rfl⟩ := getElem?_modifyClass hd
  split
  · next heq => exact hf c (heq ▸ hc)
  · exact h other c hc

end Registry

namespace Selection

open Registry

variable {owner : Option (String × String)} {s : Selection}

/-! ### The second pass -/

/-- A member of the current class, which is the one that the member names. -/
theorem enrolled_addMember (h : s.registry.Enrolled read) {id : ClassId} {f : DeclaredFunction} {o : Overload}
    {result : CxxType} (hcurrent : s.registry.IsCurrent f.owner id) (hread : read f o) :
    (s.addMember id f o result).registry.Enrolled read := by
  obtain ⟨c, hc, hexposed, howner⟩ := hcurrent
  rw [addMember, hc]
  simp only
  split
  · next m hadd =>
    obtain ⟨hrecording, -⟩ := wrapAll_spec
      (s.modifyClass id fun d => d.withMembers (kindOf f) ((c.members (kindOf f)).insert f.name m)) o result
    refine Enrolled.unmoved (r := s.registry.modifyClass id fun d =>
      d.withMembers (kindOf f) ((c.members (kindOf f)).insert f.name m)) ?_ ?_
    · refine h.modifyClass id fun d hd => ?_
      obtain rfl : c = d := Option.some.inj (hc.symm.trans hd)
      exact (h id c hc).insert hexposed ((h id c hc).extend hread howner hadd)
    · rw [hrecording.registry.rest]
      exact unmoved_of_classes_eq rfl
  · exact h

/-- The next member: of the current class if there is one, else of none. -/
theorem enrolled_registerMember (h : s.registry.Enrolled read) (hsound : s.Sound owner) {f : DeclaredFunction}
    (hfollows : (Declaration.function f).Follows owner) (hmember : f.owner.isSome = true)
    (hread : ∀ o result, s.signature f = .ok (o, result) → read f o) :
    (s.registerMember f).registry.Enrolled read := by
  obtain ⟨o, ho⟩ := Option.isSome_iff_exists.1 hmember
  have howner : owner = f.owner := (hfollows o ho).1.trans ho.symm
  rw [registerMember]
  split
  · exact h
  · next id hid =>
    split
    · exact h.unmoved (unmoved_modifyClass_of_sameFace s.registry id sameFace_makeDefault sameMembers_makeDefault)
    · split
      · exact h
      · split
        · exact h
        · rw [withSignature]
          split
          · exact h
          · next overload result hsignature =>
            exact enrolled_addMember h (howner ▸ hsound.current id hid) (hread overload result hsignature)

/-- A declaration that stands where it may leaves every class with its own members. -/
theorem enrolled_register (h : s.registry.Enrolled read) (hsound : s.Sound owner) {d : Declaration}
    (hfollows : d.Follows owner)
    (hread : ∀ f o result, d = .function f → s.signature f = .ok (o, result) → read f o) :
    (s.register d).1.registry.Enrolled read := by
  cases d with
  | remark => exact h
  | record c => exact h.unmoved (unmoved_registerClass hsound.registry.regular.placed trivial)
  | function f =>
    rw [register]
    simp only
    split
    · next hmember => exact enrolled_registerMember h hsound hfollows hmember fun o result => hread f o result rfl
    · exact h.unmoved (unmoved_registerFunction s f)
  | enum e => exact h.unmoved (unmoved_registerEnum s e)

/-! ### The end -/

theorem enrolled_setMember (h : s.registry.Enrolled read) {c : BoundClass} (hclass : s.registry.class? c.id = some c)
    (hexposed : c.isExposed = true) (kind : MemberKind) (key : String) {member : BoundFunction}
    (hmember : member.isRedirector = true) : (s.setMember c kind key member).registry.Enrolled read := by
  refine h.modifyClass c.id fun d hd => ?_
  obtain rfl : c = d := Option.some.inj (hclass.symm.trans hd)
  exact (h c.id c hd).insert hexposed fun hdirect => absurd (hmember.symm.trans hdirect) nofun

theorem enrolled_attachRedirector (h : s.registry.Enrolled read) (hsound : s.Sound owner)
    (p : Pending RedirectorRequest) : (s.attachRedirector p).registry.Enrolled read := by
  rw [attachRedirector]
  simp only
  split
  · exact h
  · next c hc =>
    obtain ⟨hclass, hexposed⟩ := hsound.exposedClass? hc
    exact enrolled_setMember h hclass hexposed _ _ rfl

theorem enrolled_attachMetamethod (h : s.registry.Enrolled read) (hsound : s.Sound owner)
    (p : Pending MetamethodRequest) : (s.attachMetamethod p).registry.Enrolled read := by
  rw [attachMetamethod]
  simp only
  split
  · exact h
  · split
    · exact h
    · next c hc =>
      obtain ⟨hclass, hexposed⟩ := hsound.exposedClass? hc
      have hset := enrolled_setMember h hclass hexposed .metamethod p.request.metamethod
        (rfl : (wrappedMember c p.request.metamethod p.wrapper p.source).isRedirector = true)
      split
      · exact hset
      · exact hset.unmoved (unmoved_of_classes_eq rfl)

theorem enrolled_assembled (h : s.registry.Enrolled read) (hsound : s.Sound owner) :
    s.assembled.registry.Enrolled read := by
  have hbases := h.unmoved (unmoved_addRequestedBases s s.requests.bases)
  have hbased := hsound.addRequestedBases s.requests.bases
  exact (keeps_assembled (P := fun t => t.Sound owner ∧ t.registry.Enrolled read)
    (fun _ p ht => ⟨ht.1.attachRedirector p, enrolled_attachRedirector ht.2 ht.1 p⟩)
    (fun _ p ht => ⟨ht.1.attachMetamethod p, enrolled_attachMetamethod ht.2 ht.1 p⟩) ⟨hbased, hbases⟩).2

theorem enrolled_settled (h : s.registry.Enrolled read) : s.settled.Enrolled read := by
  refine keeps_settled (fun hr heq => hr.unmoved (unmoved_of_classes_eq heq)) (fun r name scope hr => ?_)
    (fun r id kind keys hr => ?_) h
  · exact hr.unmoved (unmoved_addThinClass r name scope "")
  · exact hr.modifyClass id fun c hc => (hr id c hc).eraseAll kind keys

end Selection

end Enrolled

/-! ### The declarations of a class -/

/-- Is the function a constructor or a method that one of the files lists under a class of this scope and name? -/
def DeclaredUnder (sources : List DeclarationSource) (scope name : String) (d : DeclaredFunction) : Prop :=
  ∃ source ∈ sources, ∃ text document, source.text = some text ∧ DeclarationDocument.parse? text = some document
    ∧ ∃ entry ∈ document.classes, Scope.normalize entry.scope = scope ∧ entry.name = name
      ∧ .function d ∈ DeclarationDocument.classDeclarations document.source entry

/-- The members of a class name this class. -/
theorem owner_of_mem_classDeclarations {source : String} {entry : ClassEntry} {d : DeclaredFunction}
    (h : .function d ∈ DeclarationDocument.classDeclarations source entry) :
    d.owner = some (Scope.normalize entry.scope, entry.name) := by
  obtain ⟨c, members, hentry, hscope, hname, howners⟩ := DeclarationSource.exists_members_of_entry source entry
  rw [hentry] at h
  obtain ⟨f, hf, heq⟩ := List.mem_map.1 ((List.mem_cons.1 h).resolve_left nofun)
  cases heq
  rw [(howners d hf).1, hscope, hname]

/-- A function that names a class is listed under it. -/
theorem declaredUnder_of_mem_stream {sources : List DeclarationSource} {d : DeclaredFunction} {scope name : String}
    (hmem : .ok (.function d) ∈ DeclarationSource.stream sources) (howner : d.owner = some (scope, name)) :
    DeclaredUnder sources scope name d := by
  obtain ⟨source, hsource, text, document, htext, hparse, hdeclared⟩ := DeclarationSource.mem_stream_iff.1 hmem
  have hentry : ∃ entry ∈ document.classes,
      .function d ∈ DeclarationDocument.classDeclarations document.source entry := by
    rw [DeclarationDocument.declarations] at hdeclared
    simp only [List.mem_append] at hdeclared
    obtain ((hremark | hclass) | hfunction) | henum := hdeclared
    · obtain ⟨comment, -, heq⟩ := List.mem_map.1 hremark
      cases heq
    · exact List.mem_flatMap.1 hclass
    · obtain ⟨f, hf, heq⟩ := List.mem_map.1 hfunction
      cases heq
      cases (DeclarationSource.owner_of_mem_functions hparse f hf).symm.trans howner
    · obtain ⟨e, -, heq⟩ := List.mem_map.1 henum
      cases heq
  obtain ⟨entry, hmem, hlisted⟩ := hentry
  cases (owner_of_mem_classDeclarations hlisted).symm.trans howner
  exact ⟨source, hsource, text, document, htext, hparse, entry, hmem, rfl, rfl, hlisted⟩

/-! ### Whole runs -/

/-- May the function of the sequence be read as this overload, by what the first pass has learned? -/
def Selection.Reads (learned : Selection) (stream : List (Except DeclarationError Declaration))
    (d : DeclaredFunction) (o : Overload) : Prop :=
  .ok (.function d) ∈ stream ∧ ∃ result, learned.signature d = .ok (o, result)

/-- Before anything is dropped, every class has its own members. -/
theorem Selection.enrolled_complete (patches : Patches) (headers : NameSet) {sources : List DeclarationSource}
    (hplain : PlainNames (DeclarationSource.stream sources)) :
    ((start { patches, headers }).complete (DeclarationSource.stream sources)).registry.Enrolled
      (((start { patches, headers }).learnAll (DeclarationSource.stream sources)).1.Reads
        (DeclarationSource.stream sources)) := by
  have hlearned := (Sound.start patches headers).keeps
    (keeps_learnAll (start { patches, headers }) (DeclarationSource.stream sources))
  have hnone : ((start { patches, headers }).learnAll (DeclarationSource.stream sources)).1.registry.classes = [] := by
    obtain ⟨templates, known, requests, notices, heq⟩ :=
      learnAll_rest (start { patches, headers }) (DeclarationSource.stream sources)
    rw [heq]
    rfl
  rw [complete]
  generalize ((start { patches, headers }).learnAll (DeclarationSource.stream sources)).1 = learned at hlearned hnone
  -- a member is read by the names of the first pass, which no step of the second changes
  obtain ⟨owner, hsound, hregistered, -⟩ := inOrder_induction
    (P := fun owner s => s.Sound owner ∧ s.registry.Enrolled (learned.Reads (DeclarationSource.stream sources))
      ∧ Learned learned s)
    (fun {owner s d} hd hfollows hkept => by
      obtain ⟨hsound, henrolled, hlearned⟩ := hkept
      refine ⟨hsound.register hfollows fun c hc => hplain c (hc ▸ hd), ?_, hlearned.trans (learned_register s d)⟩
      refine enrolled_register henrolled hsound hfollows fun f o result hf hsignature => ⟨hf ▸ hd, result, ?_⟩
      rw [← hlearned.signature]
      exact hsignature)
    (s := learned) ⟨hlearned, fun id c hc => by simp [Registry.class?, hnone] at hc, .refl learned⟩
    (DeclarationSource.inOrder_stream sources none)
  exact enrolled_assembled hregistered hsound

/-- CORRECT: after a run that succeeds over classes with names without colons, a member stands in the class that
declares it. Unless a native wrapper redirects it, it has this class as owner, the qualified name of the class as
scope, and the name that it is kept by; it is a constructor or static as the part of the class says that it is kept
in; it has an overload, and each of its overloads is what a constructor or a method reads as that a file lists
under a class of the same scope and name. A class that is not exposed has no members at all. -/
theorem members_land_in_their_class (patches : Patches) (headers : NameSet) (sources : List DeclarationSource)
    (summary : Summary) (hplain : PlainNames (DeclarationSource.stream sources))
    (hselected : (({ patches, headers } : Registry).select sources).outcome = .ok summary) :
    let learned := ((start { patches, headers }).learnAll (DeclarationSource.stream sources)).1
    ∀ c ∈ (({ patches, headers } : Registry).select sources).registry.classes,
      (∀ kind ∈ generatedKinds, ∀ key f, (c.members kind).get? key = some f → f.isRedirector = false →
        f.owner = some c.id ∧ f.scope = c.qualified ∧ f.name = key
          ∧ (f.isConstructor = true ↔ kind = .constructor)
          ∧ (f.isStatic = true ↔ kind = .static ∨ kind = .constructor)
          ∧ f.overloads ≠ []
          ∧ ∀ o ∈ f.overloads, ∃ d, DeclaredUnder sources c.scope c.name d ∧ d.name = key ∧ kindOf d = kind
            ∧ ∃ result, learned.signature d = .ok (o, result))
        ∧ (c.isExposed = false → ∀ kind, c.members kind = ∅) := by
  intro learned c hc
  have hsound := (finished_of_run hplain hselected).sound
  have henrolled : (({ patches, headers } : Registry).select sources).registry.Enrolled
      (learned.Reads (DeclarationSource.stream sources)) := by
    have hcomplete := enrolled_complete patches headers hplain
    unfold Registry.select at hselected ⊢
    split at hselected
    · next s hrun =>
      change s.registry.Enrolled _
      rw [(passes_of_run hrun).2.2]
      exact enrolled_settled hcomplete
    · cases hselected
  have hclass := henrolled c.id c (hsound.regular.class?_eq hc)
  refine ⟨fun kind hkind key f hf hdirect => ?_, hclass.hidden⟩
  have hown := ((hsound.housed.classes c hc).members kind hkind f (NameMap.mem_values_of_get? hf)).owned hdirect
  have hmember := hclass.members kind key f hf hdirect
  refine ⟨hown.owner, hown.scope, hmember.name, hmember.isConstructor, ?_, hmember.taken, fun o ho => ?_⟩
  · rw [hown.isStatic]
    cases kind <;> simp [generatedKinds] at hkind ⊢
  · obtain ⟨d, ⟨hmem, hread⟩, howner, hname, hkindOf⟩ := hmember.declared o ho
    exact ⟨d, declaredUnder_of_mem_stream hmem howner, hname, hkindOf, hread⟩

/-- A file with a class that is exposed and one that stays thin, each with a method. -/
def lampSource : DeclarationSource where
  path := "lamp.toml"
  text := some "source='lamp.hpp'\n[[class]]\nname='Lamp'\ncomment='CUSTOM_ATTRIBUTE[Lua(Main)]'\n[[class.method]]\nname='Dim'\nparams=[['by','int']]\n[[class]]\nname='Bulb'\n[[class.method]]\nname='Glow'"

/-- A file that declares the first class once more. -/
def spareSource : DeclarationSource where
  path := "spare.toml"
  text := some "source='spare.hpp'\n[[class]]\nname='Lamp'\ncomment='CUSTOM_ATTRIBUTE[Lua(Main)]'\n[[class.method]]\nname='Burn'"

theorem lamp_keeps_dim : ∃ summary, (Registry.select {} [lampSource, spareSource]).outcome = .ok summary
    ∧ (Registry.select {} [lampSource, spareSource]).registry.classes.map (fun c => (c.qualified, c.functions.keys))
      = [("::Lamp", ["Dim"]), ("::Bulb", [])]
    ∧ ∃ c ∈ (Registry.select {} [lampSource, spareSource]).registry.classes, ∃ f, c.functions.get? "Dim" = some f
      ∧ f.owner = some c.id ∧ f.overloads ≠ []
      ∧ ∀ o ∈ f.overloads, ∃ d, DeclaredUnder [lampSource, spareSource] c.scope c.name d ∧ d.name = "Dim" := by
  have hrun : (Registry.select {} [lampSource, spareSource]).outcome.isOk = true
      ∧ PlainNames (DeclarationSource.stream [lampSource, spareSource])
      ∧ (Registry.select {} [lampSource, spareSource]).registry.classes.map (fun c => (c.qualified, c.functions.keys))
        = [("::Lamp", ["Dim"]), ("::Bulb", [])]
      ∧ (Registry.select {} [lampSource, spareSource]).registry.classes.any (fun c =>
        (c.functions.get? "Dim").any fun f => !f.isRedirector) = true := by
    decide +kernel
  obtain ⟨hok, hplain, hclasses, hany⟩ := hrun
  obtain ⟨summary, hsummary⟩ := isOk_iff.1 hok
  obtain ⟨c, hc, hmember⟩ := List.any_eq_true.1 hany
  obtain ⟨f, hf, hdirect⟩ := (Option.any_eq_true ..).1 hmember
  obtain ⟨howner, -, -, -, -, htaken, hdeclared⟩ :=
    (members_land_in_their_class {} ∅ [lampSource, spareSource] summary hplain hsummary c hc).1 .function (by decide) "Dim" f hf
      (by simpa using hdirect)
  refine ⟨summary, hsummary, hclasses, c, hc, f, hf, howner, htaken, fun o ho => ?_⟩
  obtain ⟨d, hunder, hname, -⟩ := hdeclared o ho
  exact ⟨d, hunder, hname⟩

end LuaGlue
