import LuaGlue.Proofs.Emission.Parts
import LuaGlue.Proofs.Emission.Uses
import LuaGlue.Proofs.Members.MemberMap
import LuaGlue.Proofs.Selection.Settled

/-!
Class bindings name only what stands before them.

In a state file the functions of all classes come first, then their maps and setup functions. A map names
wrappers of the whole lineage of its class, so the file must hold every class of the lineage that has any:
classes without a state have none, and the classes of a file are closed under the others
(`mem_classesForState_of_lineage`). The sets and the wrappers of function types stand before all classes,
because every class that is a parameter is registered and every function type that is a result is recorded.

    sets, function types ──▶ dispatch, helper, wrappers of each class ──▶ maps, setup of each class
-/

namespace LuaGlue

open Selection

/-! ### Order of definitions -/

namespace Part

/-- Is the symbol defined in one of these parts? -/
def Defined (parts : List Part) (symbol : String) : Prop := ∃ p ∈ parts, symbol ∈ p.defines

/-- Does each part name only what these parts, or one of those before it, define? -/
def Closed : List Part → List Part → Prop
  | _, [] => True
  | earlier, p :: rest => (∀ symbol ∈ p.mentions, Defined earlier symbol) ∧ Closed (earlier ++ [p]) rest

section Closed

variable {earlier later ps qs : List Part} {symbol : String}

theorem Defined.mono (h : Defined earlier symbol) (hsub : ∀ p ∈ earlier, p ∈ later) : Defined later symbol := by
  obtain ⟨p, hp, hdefines⟩ := h
  exact ⟨p, hsub p hp, hdefines⟩

theorem Closed.mono (h : Closed earlier ps) (hsub : ∀ p ∈ earlier, p ∈ later) : Closed later ps := by
  induction ps generalizing earlier later with
  | nil => trivial
  | cons p rest ih =>
    refine ⟨fun symbol hsymbol => (h.1 symbol hsymbol).mono hsub, ih h.2 fun q hq => ?_⟩
    rcases List.mem_append.1 hq with hq | hq
    · exact List.mem_append_left _ (hsub q hq)
    · exact List.mem_append_right _ hq

theorem Closed.append (h : Closed earlier ps) (h' : Closed (earlier ++ ps) qs) : Closed earlier (ps ++ qs) := by
  induction ps generalizing earlier with
  | nil => simpa using h'
  | cons p rest ih => exact ⟨h.1, ih h.2 (by simpa using h')⟩

theorem closed_of_forall (h : ∀ p ∈ ps, ∀ symbol ∈ p.mentions, Defined earlier symbol) : Closed earlier ps := by
  induction ps generalizing earlier with
  | nil => trivial
  | cons p rest ih =>
    refine ⟨h p List.mem_cons_self, ih fun q hq symbol hsymbol => ?_⟩
    exact (h q (List.mem_cons_of_mem _ hq) symbol hsymbol).mono fun _ => List.mem_append_left _

theorem closed_flatMap {α : Type} {parts : α → List Part} {l : List α} (h : ∀ a ∈ l, Closed earlier (parts a)) :
    Closed earlier (l.flatMap parts) := by
  induction l generalizing earlier with
  | nil => trivial
  | cons a l ih =>
    refine (h a List.mem_cons_self).append (ih fun b hb => ?_)
    exact (h b (List.mem_cons_of_mem _ hb)).mono fun _ => List.mem_append_left _

end Closed

end Part

/-! ### Classes of a state -/

namespace Registry

variable {r : Registry}

/-- A file holds an exposed class when a class that is bound to the state leads to it. -/
theorem Regular.reaches_iff (h : r.Regular) {state : String} {c : BoundClass} (hc : c ∈ r.classes) :
    r.reaches state c = true
      ↔ c.isExposed = true ∧ ∃ d ∈ r.classes, d.state = some state ∧ r.LeadsTo d.id c.id := by
  unfold reaches
  rw [Bool.and_eq_true, Bool.or_eq_true, List.any_eq_true]
  refine and_congr_right fun _ => ⟨?_, ?_⟩
  · rintro (hstate | ⟨d, hd, hbase⟩)
    · exact ⟨c, hc, by simpa using hstate, .refl⟩
    · obtain ⟨hstate, hderives⟩ := Bool.and_eq_true_iff.1 hbase
      refine ⟨d, hd, by simpa using hstate, (leadsTo_iff h.basesInRange).1 ?_⟩
      rw [hderives, Bool.or_true]
  · rintro ⟨d, hd, hstate, hleads⟩
    rcases Bool.or_eq_true_iff.1 ((leadsTo_iff h.basesInRange).2 hleads) with hid | hderives
    · obtain rfl : d = c := by
        have hsame := h.class?_eq hd
        rw [beq_iff_eq.1 hid, h.class?_eq hc] at hsame
        exact (Option.some.inj hsame).symm
      exact .inl (by simpa using hstate)
    · exact .inr ⟨d, hd, by simp [hstate, hderives]⟩

/-- The classes of a file are closed under exposed bases. -/
theorem Regular.mem_classesForState_of_lineage (h : r.Regular) {state : String} {c owner : BoundClass}
    (hc : c ∈ r.classesForState state) (howner : owner ∈ r.lineage c.id) (hexposed : owner.isExposed = true) :
    owner ∈ r.classesForState state := by
  obtain ⟨hmem, hreaches⟩ := List.mem_filter.1 hc
  obtain ⟨hin, hleads⟩ := (mem_lineage_iff h.placed h.basesInRange).1 howner
  obtain ⟨-, d, hd, hstate, hto⟩ := (h.reaches_iff hmem).1 hreaches
  exact List.mem_filter.2 ⟨hin, (h.reaches_iff hin).2 ⟨hexposed, d, hd, hstate, hto.trans hleads⟩⟩

end Registry

/-! ### What a file is made of -/

theorem ClassGlue.of_eq_ok {r : Registry} {c : BoundClass} {g : ClassGlue} (h : ClassGlue.of r c = .ok g) :
    g.bound = c ∧ c.constructorDispatch r = .ok g.dispatch ∧ Members.wrappers r c = .ok g.wrappers := by
  obtain ⟨dispatch, hdispatch, h⟩ := bind_eq_ok.1 h
  obtain ⟨wrappers, hwrappers, h⟩ := bind_eq_ok.1 h
  cases h
  exact ⟨rfl, hdispatch, hwrappers⟩

theorem StateFile.of_eq_ok {r : Registry} {cxxNamespace state : String} {file : StateFile}
    (h : StateFile.of r cxxNamespace state = .ok file) :
    r.signatures.values.mapM (fun s => ProtoWrapper.of s r) = .ok file.protos
      ∧ (r.classesForState state).mapM (ClassGlue.of r) = .ok file.classes := by
  unfold StateFile.of at h
  obtain ⟨protos, hprotos, h⟩ := bind_eq_ok.1 h
  obtain ⟨glue, hglue, h⟩ := bind_eq_ok.1 h
  obtain ⟨wrappers, -, h⟩ := bind_eq_ok.1 h
  cases h
  exact ⟨hprotos, hglue⟩

theorem ProtoWrapper.wrapperName_of {s : Signature} {r : Registry} {w : ProtoWrapper}
    (h : ProtoWrapper.of s r = .ok w) : s.wrapperName = .ok w.name := by
  unfold ProtoWrapper.of at h
  obtain ⟨name, hname, h⟩ := bind_eq_ok.1 h
  obtain ⟨arguments, -, h⟩ := bind_eq_ok.1 h
  obtain ⟨pointerText, -, h⟩ := bind_eq_ok.1 h
  obtain ⟨push, -, h⟩ := bind_eq_ok.1 h
  cases h
  exact hname

theorem WrapperFunction.of_eq_ok {name : String} {f : BoundFunction} {r : Registry} {w : WrapperFunction}
    (h : WrapperFunction.of name f r = .ok w) : w.name = name ∧ WrapperBody.of f r = .ok w.body := by
  obtain ⟨body, hbody, h⟩ := bind_eq_ok.1 h
  cases h
  exact ⟨rfl, hbody⟩

/-- A function that gets a wrapper is a member of a generated kind. -/
theorem mem_wrapped {c : BoundClass} {f : BoundFunction} (h : f ∈ Members.wrapped c) :
    f.isRedirector = false ∧ ∃ kind ∈ generatedKinds, f ∈ (c.members kind).values := by
  rcases List.mem_append.1 h with hfunction | hstatic
  · obtain ⟨hmem, htest⟩ := List.mem_filter.1 hfunction
    refine ⟨?_, .function, by decide, hmem⟩
    simpa using (Bool.and_eq_true_iff.1 htest).1
  · obtain ⟨hmem, htest⟩ := List.mem_filter.1 hstatic
    exact ⟨by simpa using htest, .static, by decide, hmem⟩

/-- The wrapper of a member is named after the class it belongs to. -/
theorem wrapperName_of_owner {r : Registry} {owner : BoundClass} (hclass : r.class? owner.id = some owner)
    {f : BoundFunction} (howner : f.owner = some owner.id) (c : BoundClass) :
    Members.wrapperName r c f = Members.wrapperName r owner f := by
  have hbind : f.owner.bind r.class? = some owner := by rw [howner, Option.bind_some, hclass]
  unfold Members.wrapperName
  rw [hbind, Option.getD_some, Option.getD_some]

section File

variable {r : Registry} {cxxNamespace state : String} {file : StateFile}

/-! ### Sets and function types -/

theorem defined_convertibleSet {c : BoundClass} (hc : c ∈ r.classes) :
    Part.Defined (file.sharedParts r) c.convertibleSet := by
  refine ⟨StateFile.setsPart r, ?_, List.mem_map.2 ⟨c, hc, rfl⟩⟩
  exact List.mem_append_left _ (List.mem_append_left _ (List.mem_cons_of_mem _ List.mem_cons_self))

/-- A recorded function type has its wrapper in the file. -/
theorem defined_signature (hkeyed : Keyed r.signatures) (hfile : StateFile.of r cxxNamespace state = .ok file)
    {key : String} (hkey : r.signatures.contains key = true) : Part.Defined (file.sharedParts r) key := by
  obtain ⟨s, hs⟩ := Option.isSome_iff_exists.1 hkey
  have hentry := NameMap.mem_entries_of_get? hs
  obtain ⟨w, hw, hof⟩ := exists_mem_of_mapM_ok (StateFile.of_eq_ok hfile).1 s (NameMap.mem_values.2 ⟨key, hentry⟩)
  have hname : w.name = key := by
    have hboth := ProtoWrapper.wrapperName_of hof
    rw [hkeyed _ hentry] at hboth
    exact (Except.ok.inj hboth).symm
  refine ⟨w.part, ?_, List.mem_singleton.2 hname.symm⟩
  exact List.mem_append_left _ (List.mem_append_right _ (List.mem_map.2 ⟨w, hw, rfl⟩))

/-- What the types of a member lead to is defined before all classes. -/
theorem defined_of_uses (hfinished : r.Finished) (hfile : StateFile.of r cxxNamespace state = .ok file)
    {c : BoundClass} (hc : c ∈ r.classes) {kind : MemberKind} (hkind : kind ∈ generatedKinds) {f : BoundFunction}
    (hf : f ∈ (c.members kind).values) (hdirect : f.isRedirector = false) {symbol : String} (h : f.Uses symbol) :
    Part.Defined (file.sharedParts r) symbol := by
  rcases h with ⟨ref, m, hmem, rfl⟩ | ⟨s, hs, hname⟩
  · obtain ⟨d, hd, htag⟩ := hfinished.tagged c hc kind hkind f hf hdirect ref m hmem
    have hset : Part.Defined (file.sharedParts r) d.convertibleSet := defined_convertibleSet hd
    rwa [BoundClass.convertibleSet, htag] at hset
  · have hown := ((hfinished.sound.housed.classes c hc).members kind hkind f hf).owned hdirect
    exact defined_signature hfinished.sound.keyed hfile (hown.served.recorded s hs symbol hname)

/-! ### Functions of a class -/

/-- What the dispatch of a class names stands before all classes: a constructor has no object. -/
theorem defined_of_dispatch (hfinished : r.Finished) (hfile : StateFile.of r cxxNamespace state = .ok file)
    {c : BoundClass} (hc : c ∈ r.classes) {d : ConstructorDispatch} (hd : c.constructorDispatch r = .ok (some d))
    {symbol : String} (h : symbol ∈ d.body.symbols) : Part.Defined (file.sharedParts r) symbol := by
  unfold BoundClass.constructorDispatch at hd
  split at hd
  · cases hd
  · next f hconstructor =>
    obtain ⟨body, hbody, hd⟩ := bind_eq_ok.1 hd
    cases hd
    have hf : f ∈ (c.members .constructor).values := NameMap.mem_values_of_get? hconstructor
    have hhouses := (hfinished.sound.housed.classes c hc).members .constructor (by decide) f hf
    have hdirect : f.isRedirector = false :=
      Bool.eq_false_iff.2 fun hredirector => (hhouses.redirected hredirector).2 rfl
    rcases WrapperBody.mem_symbols hbody h with ⟨hmember, -⟩ | huses
    · have hstatic : f.isStatic = true := (hhouses.owned hdirect).isStatic.2 nofun
      simp [BoundFunction.isMember, hstatic] at hmember
    · exact defined_of_uses hfinished hfile hc (by decide) hf hdirect huses

/-- What a wrapper names is the helper of its class, or stands before all classes. -/
theorem defined_of_wrapper (hfinished : r.Finished) (hfile : StateFile.of r cxxNamespace state = .ok file)
    {c : BoundClass} (hc : c ∈ r.classes) {wrappers : List WrapperFunction} (hwrappers : Members.wrappers r c = .ok wrappers)
    {w : WrapperFunction} (hw : w ∈ wrappers) {symbol : String} (h : symbol ∈ w.body.symbols) :
    symbol = c.selfHelper ∨ Part.Defined (file.sharedParts r) symbol := by
  obtain ⟨f, hf, hof⟩ := exists_of_mem_mapM_ok hwrappers w hw
  obtain ⟨hdirect, kind, hkind, hmem⟩ := mem_wrapped hf
  have hhoused := hfinished.sound.housed.classes c hc
  have hhouses := hhoused.members kind hkind f hmem
  rcases WrapperBody.mem_symbols (WrapperFunction.of_eq_ok hof).2 h with ⟨-, rfl⟩ | huses
  · refine .inl ?_
    rw [(hhouses.owned hdirect).scope, BoundClass.qualified, Scope.identifier_qualify _ (hhoused.plain hhouses.exposed)]
    rfl
  · exact .inr (defined_of_uses hfinished hfile hc hkind hmem hdirect huses)

theorem closed_functionParts (hfinished : r.Finished) (hfile : StateFile.of r cxxNamespace state = .ok file)
    {g : ClassGlue} {c : BoundClass} (hc : c ∈ r.classes) (hglue : ClassGlue.of r c = .ok g) :
    Part.Closed (file.sharedParts r) g.functionParts := by
  obtain ⟨rfl, hdispatch, hwrappers⟩ := ClassGlue.of_eq_ok hglue
  unfold ClassGlue.functionParts
  refine Part.Closed.append (Part.Closed.append ?_ ⟨fun symbol hsymbol => ?_, ?_⟩) ?_
  · refine Part.closed_of_forall fun p hp symbol hsymbol => ?_
    obtain ⟨d, hd, rfl⟩ := Option.map_eq_some_iff.1 (Option.mem_toList.1 hp)
    rw [hd] at hdispatch
    exact defined_of_dispatch hfinished hfile hc hdispatch hsymbol
  · rw [List.mem_singleton.1 hsymbol]
    exact (defined_convertibleSet hc).mono fun _ => List.mem_append_left _
  · refine Part.closed_of_forall fun p hp symbol hsymbol => ?_
    obtain ⟨w, hw, rfl⟩ := List.mem_map.1 hp
    rcases defined_of_wrapper hfinished hfile hc hwrappers hw hsymbol with rfl | hshared
    · exact ⟨g.bound.helperPart, List.mem_append_right _ List.mem_cons_self, List.mem_cons_self⟩
    · exact hshared.mono fun _ hp => List.mem_append_left _ (List.mem_append_left _ hp)
  · exact Part.closed_of_forall fun p hp symbol hsymbol => by
      rw [List.mem_singleton.1 hp] at hsymbol
      cases hsymbol

/-! ### Maps and setup functions -/

theorem defined_helper {g : ClassGlue} (hg : g ∈ file.classes) :
    Part.Defined (file.classes.flatMap ClassGlue.functionParts) g.bound.selfHelper := by
  refine ⟨g.bound.helperPart, List.mem_flatMap.2 ⟨g, hg, ?_⟩, List.mem_cons_self⟩
  exact List.mem_append_left _ (List.mem_append_right _ List.mem_cons_self)

theorem defined_wrapper {g : ClassGlue} (hg : g ∈ file.classes) {w : WrapperFunction} (hw : w ∈ g.wrappers) :
    Part.Defined (file.classes.flatMap ClassGlue.functionParts) w.name := by
  refine ⟨w.part, List.mem_flatMap.2 ⟨g, hg, ?_⟩, List.mem_cons_self⟩
  exact List.mem_append_left _ (List.mem_append_right _ (List.mem_cons_of_mem _ (List.mem_map.2 ⟨w, hw, rfl⟩)))

theorem exists_wrapper {g : ClassGlue} {c : BoundClass} (hglue : ClassGlue.of r c = .ok g) {f : BoundFunction}
    (hf : f ∈ Members.wrapped c) : ∃ w ∈ g.wrappers, w.name = Members.wrapperName r c f := by
  obtain ⟨w, hw, hof⟩ := exists_mem_of_mapM_ok (ClassGlue.of_eq_ok hglue).2.2 f hf
  exact ⟨w, hw, (WrapperFunction.of_eq_ok hof).1⟩

/-- A member of the lineage that is generated has its wrapper in the file, whatever state its class is bound to. -/
theorem exists_wrapper_of_lineage (hfinished : r.Finished) (hfile : StateFile.of r cxxNamespace state = .ok file)
    {c : BoundClass} (hc : c ∈ r.classesForState state) {owner : BoundClass} (howner : owner ∈ r.lineage c.id)
    {f : BoundFunction} (hf : f ∈ owner.functions.values) (hdirect : f.isRedirector = false)
    (hname : isOperatorName f.name = false) :
    ∃ h ∈ file.classes, h.bound = owner ∧ ∃ w ∈ h.wrappers, w.name = Members.wrapperName r c f := by
  have hregular := hfinished.sound.regular
  have hin : owner ∈ r.classes := ((Registry.mem_lineage_iff hregular.placed hregular.basesInRange).1 howner).1
  have hhouses := (hfinished.sound.housed.classes owner hin).members .function (by decide) f hf
  have hheld := hregular.mem_classesForState_of_lineage hc howner hhouses.exposed
  obtain ⟨h, hmem, hglue⟩ := exists_mem_of_mapM_ok (StateFile.of_eq_ok hfile).2 owner hheld
  have hwrapped : f ∈ Members.wrapped owner :=
    List.mem_append_left _ (List.mem_filter.2 ⟨hf, by simp [hdirect, hname]⟩)
  obtain ⟨w, hw, hnamed⟩ := exists_wrapper hglue hwrapped
  refine ⟨h, hmem, (ClassGlue.of_eq_ok hglue).1, w, hw, hnamed.trans ?_⟩
  exact (wrapperName_of_owner (hregular.class?_eq hin) (hhouses.owned hdirect).owner c).symm

/-- What the member map of a class names. -/
theorem defined_of_map (hfinished : r.Finished) (hfile : StateFile.of r cxxNamespace state = .ok file)
    {g : ClassGlue} (hg : g ∈ file.classes) (hc : g.bound ∈ r.classesForState state) {symbol : String}
    (h : symbol ∈ (Members.mapPart r g.bound).mentions) :
    Part.Defined (file.sharedParts r ++ file.classes.flatMap ClassGlue.functionParts) symbol := by
  have hin : g.bound ∈ r.classes := (List.mem_filter.1 hc).1
  have hhelper : Part.Defined (file.sharedParts r ++ file.classes.flatMap ClassGlue.functionParts)
      g.bound.selfHelper := (defined_helper hg).mono fun _ => List.mem_append_right _
  rcases List.mem_append.1 h with hlisted | hutility
  · obtain ⟨f, hf, rfl⟩ := List.mem_map.1 hlisted
    obtain ⟨hf, hgenerated⟩ := List.mem_filter.1 hf
    obtain ⟨hline, hname⟩ := List.mem_filter.1 (List.mem_of_find?_eq_some (mem_firstByName_iff.1 hf).2)
    obtain ⟨owner, howner, hmem⟩ := List.mem_flatMap.1 hline
    have hdirect : f.isRedirector = false := by
      refine Bool.eq_false_iff.2 fun hredirector => ?_
      have hregular := hfinished.sound.regular
      have hin := ((Registry.mem_lineage_iff hregular.placed hregular.basesInRange).1 howner).1
      have hhouses := (hfinished.sound.housed.classes owner hin).members .function (by decide) f hmem
      simp [Members.isGenerated, hredirector, (hhouses.redirected hredirector).1] at hgenerated
    obtain ⟨h, hglue, -, w, hw, hnamed⟩ :=
      exists_wrapper_of_lineage hfinished hfile hc howner hmem hdirect (by simpa using hname)
    rw [← hnamed]
    exact (defined_wrapper hglue hw).mono fun _ => List.mem_append_right _
  · rcases List.mem_append.1 hutility with hassign | hcheck
    · split at hassign
      · cases hassign
      · rcases List.mem_cons.1 hassign with rfl | hself
        · exact (defined_convertibleSet hin).mono fun _ => List.mem_append_left _
        · rw [List.mem_singleton.1 hself]
          exact hhelper
    · obtain ⟨name, -, rfl⟩ := List.mem_map.1 hcheck
      exact hhelper

/-- What the setup function of a class names, apart from its maps. -/
theorem defined_of_setup {g : ClassGlue} (hg : g ∈ file.classes) (hglue : ClassGlue.of r g.bound = .ok g)
    (hhoused : g.bound.Housed r.signatures) {symbol : String} (h : symbol ∈ ClassSetup.staticSymbols r g.bound
      ++ if g.bound.constructor?.isSome then [g.bound.dispatchName] else []) :
    Part.Defined (file.classes.flatMap ClassGlue.functionParts) symbol := by
  rcases List.mem_append.1 h with hstatic | hdispatch
  · obtain ⟨f, hf, rfl⟩ := List.mem_map.1 hstatic
    obtain ⟨hf, hgenerated⟩ := List.mem_filter.1 hf
    have hdirect : f.isRedirector = false := by
      refine Bool.eq_false_iff.2 fun hredirector => ?_
      have hhouses := hhoused.members .static (by decide) f hf
      simp [Members.isGenerated, hredirector, (hhouses.redirected hredirector).1] at hgenerated
    obtain ⟨w, hw, hnamed⟩ := exists_wrapper hglue (f := f)
      (List.mem_append_right _ (List.mem_filter.2 ⟨hf, by simp [hdirect]⟩))
    rw [← hnamed]
    exact defined_wrapper hg hw
  · split at hdispatch
    · next hsome =>
      rw [List.mem_singleton.1 hdispatch]
      obtain ⟨f, hf⟩ := Option.isSome_iff_exists.1 hsome
      have hof := (ClassGlue.of_eq_ok hglue).2.1
      rw [BoundClass.constructorDispatch, hf] at hof
      obtain ⟨body, -, hd⟩ := bind_eq_ok.1 hof
      have hpart : g.dispatch = some ⟨g.bound.hasDefaultConstructor, body⟩ := (Except.ok.inj hd).symm
      refine ⟨g.bound.dispatchPart ⟨g.bound.hasDefaultConstructor, body⟩, List.mem_flatMap.2 ⟨g, hg, ?_⟩,
        List.mem_cons_self⟩
      refine List.mem_append_left _ (List.mem_append_left _ (Option.mem_toList.2 ?_))
      rw [hpart]
      rfl
    · cases hdispatch

theorem closed_setupParts (hfinished : r.Finished) (hfile : StateFile.of r cxxNamespace state = .ok file)
    {g : ClassGlue} (hg : g ∈ file.classes) (hc : g.bound ∈ r.classesForState state)
    (hglue : ClassGlue.of r g.bound = .ok g) :
    Part.Closed (file.sharedParts r ++ file.classes.flatMap ClassGlue.functionParts) (g.setupParts r) := by
  refine ⟨fun symbol => defined_of_map hfinished hfile hg hc, nofun, fun symbol hsymbol => ?_, trivial⟩
  have hhoused := hfinished.sound.housed.classes g.bound (List.mem_filter.1 hc).1
  have hfunctions : Part.Defined (file.classes.flatMap ClassGlue.functionParts) symbol →
      Part.Defined (file.sharedParts r ++ file.classes.flatMap ClassGlue.functionParts
        ++ [Members.mapPart r g.bound] ++ [Members.metamethodPart r g.bound]) symbol := fun hdefined =>
    hdefined.mono fun _ hp => List.mem_append_left _ (List.mem_append_left _ (List.mem_append_right _ hp))
  rcases List.mem_append.1 hsymbol with hsymbol | hdispatch
  · rcases List.mem_append.1 hsymbol with hmaps | hstatic
    · simp only [List.mem_cons, List.not_mem_nil, or_false] at hmaps
      rcases hmaps with rfl | rfl | rfl
      · exact ⟨Members.mapPart r g.bound, List.mem_append_left _ (List.mem_append_right _ List.mem_cons_self),
          List.mem_cons_self⟩
      · exact ⟨Members.metamethodPart r g.bound, List.mem_append_right _ List.mem_cons_self, List.mem_cons_self⟩
      · exact hfunctions (defined_helper hg)
    · exact hfunctions (defined_of_setup hg hglue hhoused (List.mem_append_left _ hstatic))
  · exact hfunctions (defined_of_setup hg hglue hhoused (List.mem_append_right _ hdispatch))

/-- Everything that binds the classes is closed. -/
theorem closed_classParts (hfinished : r.Finished) (hfile : StateFile.of r cxxNamespace state = .ok file) :
    Part.Closed (file.sharedParts r) (file.classParts r) := by
  have hclasses : ∀ g ∈ file.classes, g.bound ∈ r.classesForState state ∧ ClassGlue.of r g.bound = .ok g := by
    intro g hg
    obtain ⟨c, hc, hglue⟩ := exists_of_mem_mapM_ok (StateFile.of_eq_ok hfile).2 g hg
    obtain ⟨rfl, -⟩ := ClassGlue.of_eq_ok hglue
    exact ⟨hc, hglue⟩
  refine (Part.closed_flatMap fun g hg => ?_).append (Part.closed_flatMap fun g hg => ?_)
  · exact closed_functionParts hfinished hfile (List.mem_filter.1 (hclasses g hg).1).1 (hclasses g hg).2
  · exact closed_setupParts hfinished hfile hg (hclasses g hg).1 (hclasses g hg).2

end File

/-- CORRECT: after a run that succeeds, every symbol that a class binding of a rendered state file mentions is
defined before it in this file. The parts make up the file, and their symbols stand in it; and for each
member that a class of the file has or inherits, unless a native wrapper stands for it, the file holds the
class it belongs to with its wrapper. -/
theorem class_bindings_closed (patches : Patches) (headers : NameSet) (sources : List DeclarationSource)
    (summary : Summary) (hplain : PlainNames (DeclarationSource.stream sources))
    (hselected : (({ patches, headers } : Registry).select sources).outcome = .ok summary)
    (cxxNamespace state : String) (file : StateFile)
    (hfile : StateFile.of (({ patches, headers } : Registry).select sources).registry cxxNamespace state = .ok file) :
    let registry := (({ patches, headers } : Registry).select sources).registry
    Part.textAll (file.sharedParts registry ++ file.classParts registry ++ [file.restPart registry])
        = file.render registry
      ∧ (∀ p ∈ file.sharedParts registry ++ file.classParts registry, p.IsGenuine)
      ∧ Part.Closed (file.sharedParts registry) (file.classParts registry)
      ∧ ∀ g ∈ file.classes, ∀ owner ∈ registry.lineage g.bound.id, ∀ f ∈ owner.functions.values,
        f.isRedirector = false → isOperatorName f.name = false →
          ∃ h ∈ file.classes, h.bound = owner ∧ ∃ w ∈ h.wrappers, w.name = Members.wrapperName registry g.bound f := by
  intro registry
  have hfinished : registry.Finished := Selection.finished_of_run hplain hselected
  refine ⟨file.textAll_parts registry, file.isGenuine_parts registry, closed_classParts hfinished hfile, ?_⟩
  intro g hg owner howner f hf hdirect hname
  obtain ⟨c, hc, hglue⟩ := exists_of_mem_mapM_ok (StateFile.of_eq_ok hfile).2 g hg
  obtain ⟨rfl, -⟩ := ClassGlue.of_eq_ok hglue
  exact exists_wrapper_of_lineage hfinished hfile hc howner hf hdirect hname

/-- A file that declares `Door`, which is made of a width and can be joined to another one. -/
def doorSource : DeclarationSource where
  path := "door.toml"
  text := some "source='door.hpp'\n[[class]]\nname='Door'\ncomment='CUSTOM_ATTRIBUTE[Lua(Main)]'\n[[class.constructor]]\nparams=[['width','int']]\n[[class.method]]\nname='Join'\nparams=[['other','Door*']]\nreturns='void(*)(int)'"

theorem door_bindings_closed : ∃ summary, (Registry.select {} [doorSource]).outcome = .ok summary
    ∧ PlainNames (DeclarationSource.stream [doorSource])
    ∧ ∃ file, StateFile.of (Registry.select {} [doorSource]).registry "Glue" "Main" = .ok file
      ∧ file.classes.map (fun g => (g.bound.name, g.dispatch.isSome, g.wrappers.map (·.name)))
        = [("Door", true, ["_Door_member_function_wrapper_Join"])]
      ∧ Part.Closed (file.sharedParts (Registry.select {} [doorSource]).registry)
        (file.classParts (Registry.select {} [doorSource]).registry) := by
  have hrun : (Registry.select {} [doorSource]).outcome.isOk = true
      ∧ PlainNames (DeclarationSource.stream [doorSource])
      ∧ ((StateFile.of (Registry.select {} [doorSource]).registry "Glue" "Main").toOption.map fun file =>
          file.classes.map fun g => (g.bound.name, g.dispatch.isSome, g.wrappers.map (·.name)))
        = some [("Door", true, ["_Door_member_function_wrapper_Join"])] := by
    decide +kernel
  obtain ⟨hok, hplain, hclasses⟩ := hrun
  obtain ⟨summary, hsummary⟩ := isOk_iff.1 hok
  refine ⟨summary, hsummary, hplain, ?_⟩
  cases hfile : StateFile.of (Registry.select {} [doorSource]).registry "Glue" "Main" with
  | error abort =>
    rw [hfile] at hclasses
    cases hclasses
  | ok file =>
    rw [hfile] at hclasses
    exact ⟨file, rfl, Option.some.inj hclasses,
      (class_bindings_closed {} ∅ [doorSource] summary hplain hsummary "Glue" "Main" file hfile).2.2.1⟩

end LuaGlue
