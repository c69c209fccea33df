import LuaGlue.Proofs.Functions.Wrapped
import LuaGlue.Proofs.Naming.Origins
import LuaGlue.Proofs.Naming.Words
import LuaGlue.Proofs.Selection.Enrolled
import LuaGlue.Proofs.Signatures.Kept

/-!
Which generated names are words.

Where declarations are named by words, the names of exposed classes, of members, of free functions and of states are
words too, and so is everything that is made of them. Two kinds of names come from elsewhere, since a state file has a
wrapper for every recorded function type and a convertible set for every class: a function type is spelled by whoever
takes it, and a thin class can be a base that is not declared. These are words or not as the spelling goes
(`generated_words_iff`), so `void(*)(const char*)` has a wrapper that no compiler takes (`warn_wrapper_no_word`).

    declared names ──▶ tags, helpers, maps, wrappers, setup functions     words
    spelled types  ──▶ Ret_<result>_Params_<parameters>                   words if the types are named by words
    thin classes   ──▶ convertible_to_<tag>                               words if they are
-/

namespace LuaGlue

open Registry Selection

/-! ### Declarations that are named by words -/

/-- Is the declaration named by a word, in a scope that is a path of words? -/
def Declaration.IsNamedByWords : Declaration → Prop
  | .record c => IsWord c.name ∧ IsPath c.scope
  | .function f => IsWord f.name ∧ IsPath f.scope
  | .enum e => IsWord e.name ∧ IsPath e.scope
  | .remark _ => True

instance : (d : Declaration) → Decidable d.IsNamedByWords
  | .record _ | .function _ | .enum _ => inferInstanceAs (Decidable (_ ∧ _))
  | .remark _ => inferInstanceAs (Decidable True)

/-- Are all names that the item brings in made of words, also the states in its comment? -/
def BringsWords : Except DeclarationError Declaration → Prop
  | .ok d => d.IsNamedByWords ∧ ∀ state ∈ statesNamed d.comment, IsWord state
  | .error _ => True

instance : (item : Except DeclarationError Declaration) → Decidable (BringsWords item)
  | .ok _ => inferInstanceAs (Decidable (_ ∧ _))
  | .error _ => inferInstanceAs (Decidable True)

/-- Are all declared classes, functions, enums and scopes, and all states that comments name, named by words? -/
def DeclaresWords (stream : List (Except DeclarationError Declaration)) : Prop := ∀ item ∈ stream, BringsWords item

instance (stream : List (Except DeclarationError Declaration)) : Decidable (DeclaresWords stream) :=
  List.decidableBAll ..

theorem DeclaresWords.plainNames {stream : List (Except DeclarationError Declaration)} (h : DeclaresWords stream) :
    PlainNames stream := fun _ hc => (h _ hc).1.1.isPlain

/-! ### Generated names -/

/-- The names that stand for a class in every state file. -/
def BoundClass.generatedNames (c : BoundClass) : List String := [c.tag, c.convertibleSet, c.metatable]

/-- The names that bind a class. -/
def ClassGlue.generatedNames (g : ClassGlue) : List String :=
  [g.bound.dispatchName, g.bound.selfHelper, Members.mapName g.bound, Members.metamethodMapName g.bound,
    ClassSetup.functionName g.bound] ++ g.wrappers.map (·.name)

namespace StateFile

/-- The names that a state file has of its own: those that bind its classes, the wrappers that are registered for
its free functions, the definitions of these, and its setup functions. -/
def ownNames (file : StateFile) : List String :=
  file.classes.flatMap ClassGlue.generatedNames
    ++ (file.functions.filter fun f => f.wrapperName.isNone).map BoundFunction.freeWrapperName
    ++ file.wrappers.map (·.name)
    ++ [setupName file.state, functionSetupName file.state, enumSetupName file.state]

/-- All names that are generated for a state file. -/
def generatedNames (registry : Registry) (file : StateFile) : List String :=
  registry.classes.flatMap BoundClass.generatedNames ++ registry.signatures.keys ++ file.protos.map (·.name)
    ++ file.ownNames

theorem state_of {registry : Registry} {cxxNamespace state : String} {file : StateFile}
    (h : StateFile.of registry cxxNamespace state = .ok file) : file.state = state := by
  unfold StateFile.of at h
  obtain ⟨protos, -, h⟩ := bind_eq_ok.1 h
  obtain ⟨glue, -, h⟩ := bind_eq_ok.1 h
  obtain ⟨wrappers, -, h⟩ := bind_eq_ok.1 h
  cases h
  rfl

theorem mem_ownNames {file : StateFile} {name : String} : name ∈ file.ownNames ↔
    (∃ g ∈ file.classes, name ∈ g.generatedNames)
      ∨ (∃ f ∈ file.functions, f.wrapperName = none ∧ f.freeWrapperName = name)
      ∨ (∃ w ∈ file.wrappers, w.name = name)
      ∨ name ∈ [setupName file.state, functionSetupName file.state, enumSetupName file.state] := by
  simp only [ownNames, List.mem_append, List.mem_flatMap, List.mem_map, List.mem_filter, Option.isNone_iff_eq_none,
    and_assoc, or_assoc]

theorem mem_generatedNames {registry : Registry} {file : StateFile} {name : String} :
    name ∈ file.generatedNames registry ↔
      (∃ c ∈ registry.classes, name ∈ c.generatedNames) ∨ (∃ s, (name, s) ∈ registry.signatures.entries)
        ∨ (∃ w ∈ file.protos, w.name = name) ∨ name ∈ file.ownNames := by
  have hkeys : name ∈ registry.signatures.keys ↔ ∃ s, (name, s) ∈ registry.signatures.entries := by
    simp [NameMap.keys]
  simp only [generatedNames, List.mem_append, List.mem_flatMap, List.mem_map, hkeys, or_assoc]

/-- What is defined before the free functions is among these names. -/
theorem mem_generatedNames_of_defines {registry : Registry} {file : StateFile} {part : Part}
    (hpart : part ∈ file.sharedParts registry ++ file.classParts registry) {symbol : String}
    (h : symbol ∈ part.defines) : symbol ∈ file.generatedNames registry := by
  have hclass : ∀ g ∈ file.classes, symbol ∈ g.generatedNames → symbol ∈ file.generatedNames registry :=
    fun g hg hsymbol => mem_generatedNames.2 (.inr (.inr (.inr (mem_ownNames.2 (.inl ⟨g, hg, hsymbol⟩)))))
  rcases List.mem_append.1 hpart with hshared | hclasses
  · rcases List.mem_append.1 hshared with hshared | hgap
    · rcases List.mem_append.1 hshared with hfirst | hproto
      · simp only [List.mem_cons, List.not_mem_nil, or_false] at hfirst
        rcases hfirst with rfl | rfl | rfl
        · cases h
        · obtain ⟨c, hc, rfl⟩ := List.mem_map.1 h
          exact mem_generatedNames.2 (.inl ⟨c, hc, List.mem_cons_of_mem _ List.mem_cons_self⟩)
        · cases h
      · obtain ⟨w, hw, rfl⟩ := List.mem_map.1 hproto
        obtain rfl := List.mem_singleton.1 h
        exact mem_generatedNames.2 (.inr (.inr (.inl ⟨w, hw, rfl⟩)))
    · rw [List.mem_singleton.1 hgap] at h
      cases h
  · rcases List.mem_append.1 hclasses with hfunctions | hsetup
    · obtain ⟨g, hg, hpart⟩ := List.mem_flatMap.1 hfunctions
      refine hclass g hg ?_
      rcases List.mem_append.1 hpart with hpart | hgap
      · rcases List.mem_append.1 hpart with hdispatch | hpart
        · obtain ⟨d, -, rfl⟩ := Option.map_eq_some_iff.1 (Option.mem_toList.1 hdispatch)
          obtain rfl := List.mem_singleton.1 h
          exact List.mem_cons_self
        · rcases List.mem_cons.1 hpart with rfl | hwrapper
          · obtain rfl := List.mem_singleton.1 h
            exact List.mem_cons_of_mem _ List.mem_cons_self
          · obtain ⟨w, hw, rfl⟩ := List.mem_map.1 hwrapper
            obtain rfl := List.mem_singleton.1 h
            exact List.mem_append_right _ (List.mem_map_of_mem hw)
      · rw [List.mem_singleton.1 hgap] at h
        cases h
    · obtain ⟨g, hg, hpart⟩ := List.mem_flatMap.1 hsetup
      refine hclass g hg (List.mem_append_left _ ?_)
      simp only [ClassGlue.setupParts, List.mem_cons, List.not_mem_nil, or_false] at hpart
      rcases hpart with rfl | rfl | rfl <;> obtain rfl := List.mem_singleton.1 h <;> simp

end StateFile

/-! ### Classes -/

/-- The names that stand for a class are words when its name is a word and its scope a path of words. -/
theorem BoundClass.isWord_generatedNames_iff {c : BoundClass} :
    (∀ name ∈ c.generatedNames, IsWord name) ↔ IsPath c.scope ∧ IsWord c.name := by
  have hset : IsWord "convertible_to_" := by decide
  have hsuffix : IsWord "Metatable" := by decide
  rw [← isWord_tag]
  constructor
  · exact fun h => h c.tag List.mem_cons_self
  · intro htag name hname
    simp only [generatedNames, List.mem_cons, List.not_mem_nil, or_false] at hname
    rcases hname with rfl | rfl | rfl
    · exact htag
    · exact isWord_append.2 ⟨hset, htag⟩
    · exact isWord_append.2 ⟨htag, hsuffix⟩

theorem BoundClass.isWord_fixedNames {c : BoundClass} (hscope : IsPath c.scope) (hname : IsWord c.name) :
    ∀ name ∈ [c.dispatchName, c.selfHelper, Members.mapName c, Members.metamethodMapName c,
      ClassSetup.functionName c], IsWord name := by
  have htag : IsWord c.tag := isWord_tag.2 ⟨hscope, hname⟩
  have hcalled : IsWord (Scope.identifier c.scope ++ "__" ++ c.name) := by
    simp only [isWord_append, isWord_identifier]
    exact ⟨⟨hscope, by decide⟩, hname⟩
  have hbetween : ∀ before middle after : String, IsWord before → IsWord middle → IsWord after →
      IsWord (before ++ middle ++ after) :=
    fun _ _ _ hbefore hmiddle hafter => isWord_append.2 ⟨isWord_append.2 ⟨hbefore, hmiddle⟩, hafter⟩
  intro name hmem
  simp only [List.mem_cons, List.not_mem_nil, or_false] at hmem
  rcases hmem with rfl | rfl | rfl | rfl | rfl
  · exact hbetween "lua_setup_" c.tag "_constructor_dispatch" (by decide) htag (by decide)
  · exact hbetween "internal_" _ "_get_self" (by decide) hcalled (by decide)
  · exact isWord_append.2 ⟨htag, by decide⟩
  · exact isWord_append.2 ⟨htag, by decide⟩
  · exact isWord_append.2 ⟨by decide, htag⟩

/-! ### Files -/

/-- Is the name that of the wrapper of a function type that is not named by words, or one of a thin class that is
not? -/
def Registry.IsForeign (r : Registry) (name : String) : Prop :=
  (∃ s, r.signatures.get? name = some s ∧ ∃ t ∈ s.result :: s.params, t.isNamedByWords = false)
    ∨ ∃ c ∈ r.classes, c.isExposed = false ∧ ¬ (IsPath c.scope ∧ IsWord c.name) ∧ name ∈ c.generatedNames

/-- Are all recorded function types and all thin classes named by words? -/
structure Registry.BringsInWords (r : Registry) : Prop where
  signatures : ∀ s ∈ r.signatures.values, ∀ t ∈ s.result :: s.params, t.isNamedByWords = true
  thin : ∀ c ∈ r.classes, c.isExposed = false → IsPath c.scope ∧ IsWord c.name

section File

variable {r : Registry} {cxxNamespace state : String} {file : StateFile}

/-- What no word is among the names of function types is foreign. -/
theorem isForeign_of_key (hkeyed : Keyed r.signatures) {key : String} {s : Signature} (hentry : (key, s) ∈ r.signatures.entries)
    (h : ¬ IsWord key) : r.IsForeign key := by
  rw [Signature.isWord_wrapperName_iff (hkeyed (key, s) hentry)] at h
  push Not at h
  obtain ⟨t, ht, hbad⟩ := h
  exact .inl ⟨s, NameMap.get?_of_mem_entries hentry, t, ht, Bool.eq_false_iff.2 hbad⟩

/-- The names of a file are its own, which are taken to be words here, and those that its registry brings in. -/
theorem isForeign_of_not_isWord (hkeyed : Keyed r.signatures)
    (hexposed : ∀ c ∈ r.classes, c.isExposed = true → IsPath c.scope ∧ IsWord c.name)
    (hfile : StateFile.of r cxxNamespace state = .ok file) (hown : ∀ name ∈ file.ownNames, IsWord name) {name : String}
    (hname : name ∈ file.generatedNames r) (h : ¬ IsWord name) : r.IsForeign name := by
  rcases StateFile.mem_generatedNames.1 hname with ⟨c, hc, hnamed⟩ | ⟨s, hentry⟩ | ⟨w, hw, rfl⟩ | hname
  · have hbad : ¬ (IsPath c.scope ∧ IsWord c.name) := fun hwords =>
      h (BoundClass.isWord_generatedNames_iff.2 hwords name hnamed)
    exact .inr ⟨c, hc, Bool.eq_false_iff.2 fun hshown => hbad (hexposed c hc hshown), hbad, hnamed⟩
  · exact isForeign_of_key hkeyed hentry h
  · obtain ⟨s, hs, hof⟩ := exists_of_mem_mapM_ok (StateFile.of_eq_ok hfile).1 w hw
    obtain ⟨key, hentry⟩ := NameMap.mem_values.1 hs
    have hsame := ProtoWrapper.wrapperName_of hof
    rw [hkeyed (key, s) hentry] at hsame
    cases hsame
    exact isForeign_of_key hkeyed hentry h
  · exact absurd (hown name hname) h

/-- Nothing foreign is brought in by words. -/
theorem Registry.BringsInWords.not_isForeign (h : r.BringsInWords) (name : String) : ¬ r.IsForeign name := by
  rintro (⟨s, hget, t, ht, hbad⟩ | ⟨c, hc, hhidden, hbad, -⟩)
  · rw [h.signatures s (NameMap.mem_values_of_get? hget) t ht] at hbad
    cases hbad
  · exact hbad (h.thin c hc hhidden)

/-- A file of words has a registry that brings in words. -/
theorem bringsInWords_of_isWord (hkeyed : Keyed r.signatures) (h : ∀ name ∈ file.generatedNames r, IsWord name) :
    r.BringsInWords := by
  refine ⟨fun s hs => ?_, fun c hc _ => ?_⟩
  · obtain ⟨key, hentry⟩ := NameMap.mem_values.1 hs
    have hword := h key (StateFile.mem_generatedNames.2 (.inr (.inl ⟨s, hentry⟩)))
    exact (Signature.isWord_wrapperName_iff (hkeyed (key, s) hentry)).1 hword
  · exact BoundClass.isWord_generatedNames_iff.1 fun name hname =>
      h name (StateFile.mem_generatedNames.2 (.inl ⟨c, hc, hname⟩))

/-- A state file that is rendered is that of a state which something is bound in. -/
theorem Registry.of_mem_renderStates {states : List String}
    (h : file ∈ (r.renderStates cxxNamespace states).1.map Prod.fst) :
    ∃ state ∈ states, StateFile.of r cxxNamespace state = .ok file := by
  induction states with
  | nil => cases h
  | cons state rest ih =>
    rw [renderStates] at h
    split at h
    · cases h
    · next first hfirst =>
      rcases List.mem_cons.1 h with rfl | hrest
      · exact ⟨state, List.mem_cons_self, hfirst⟩
      · obtain ⟨other, hother, hof⟩ := ih hrest
        exact ⟨other, List.mem_cons_of_mem _ hother, hof⟩

end File

/-! ### Runs -/

section Run

variable {patches : Patches} {headers : NameSet} {sources : List DeclarationSource} {s : Selection}
  {cxxNamespace state : String} {file : StateFile}

/-- An exposed class is named as it is declared. -/
theorem isWord_of_exposed (hdeclared : DeclaresWords (DeclarationSource.stream sources)) (hsound : s.registry.Sound)
    (hrun : (start { patches, headers }).runAll (DeclarationSource.stream sources) = (s, none)) {c : BoundClass}
    (hc : c ∈ s.registry.classes) (hexposed : c.isExposed = true) : IsPath c.scope ∧ IsWord c.name := by
  obtain ⟨d, hd, hsame⟩ := announced_of_run hrun c.id c (hsound.regular.class?_eq hc) hexposed
  obtain ⟨hname, hscope⟩ := (hdeclared _ hd).1
  have hqualified : IsPath c.qualified := by
    rw [← hsame]
    exact isPath_qualify.2 ⟨hscope, hname.isPath⟩
  obtain ⟨hpath, hlast⟩ := isPath_qualify.1 hqualified
  exact ⟨hpath, hlast.isWord ((hsound.housed.classes c hc).plain hexposed)⟩

/-- A member that is generated has the name of one that is declared. -/
theorem isWord_of_member (hdeclared : DeclaresWords (DeclarationSource.stream sources))
    (hrun : (start { patches, headers }).runAll (DeclarationSource.stream sources) = (s, none))
    (hsound : s.registry.Sound) {c : BoundClass} (hc : c ∈ s.registry.classes) {kind : MemberKind} {f : BoundFunction}
    (hf : f ∈ (c.members kind).values) (hdirect : f.isRedirector = false) : IsWord f.name := by
  have henrolled := enrolled_settled (enrolled_complete patches headers hdeclared.plainNames)
  rw [← (passes_of_run hrun).2.2] at henrolled
  obtain ⟨key, hkey⟩ := NameMap.mem_values.1 hf
  have hmember := (henrolled c.id c (hsound.regular.class?_eq hc)).members kind key f (NameMap.mem_entries_iff.1 hkey)
    hdirect
  obtain ⟨o, ho⟩ := List.exists_mem_of_ne_nil _ hmember.taken
  obtain ⟨d, ⟨hd, -⟩, -, hname, -⟩ := hmember.declared o ho
  rw [hmember.name, ← hname]
  exact (hdeclared _ hd).1.1

/-- A free function that is generated has the scope and the name of one that is declared. -/
theorem isWord_of_function (hdeclared : DeclaresWords (DeclarationSource.stream sources))
    (hrun : (start { patches, headers }).runAll (DeclarationSource.stream sources) = (s, none)) {f : BoundFunction}
    (hf : f ∈ s.registry.functions.values) (hwrapper : f.wrapperName = none) : IsWord f.freeWrapperName := by
  obtain ⟨key, hkey⟩ := NameMap.mem_values.1 hf
  obtain ⟨hsettled, -⟩ := (functions_of_run hrun).1 (NameMap.mem_entries_iff.1 hkey)
  obtain ⟨first, rest, o, result, hoffers, -, -, heq⟩ := Offer.eq_of_foldl_settle hsettled hwrapper
  have hfirst : first ∈ ((start { patches, headers }).learnAll (DeclarationSource.stream sources)).1.offersAt key
      (DeclarationSource.stream sources) := by
    rw [offersAt, hoffers]
    exact List.mem_cons_self
  obtain ⟨hname, hscope⟩ := (hdeclared _ (mem_offersAt.1 hfirst).1).1
  rw [BoundFunction.freeWrapperName, hwrapper, heq]
  change IsWord ("lua" ++ Scope.identifier first.declared.scope ++ "_" ++ first.declared.name ++ "_wrapper")
  simp only [isWord_append, isWord_identifier]
  exact ⟨⟨⟨⟨by decide, hscope⟩, by decide⟩, hname⟩, by decide⟩

/-- What binds a class has names that are words. -/
theorem isWord_of_glue (hdeclared : DeclaresWords (DeclarationSource.stream sources))
    (hrun : (start { patches, headers }).runAll (DeclarationSource.stream sources) = (s, none))
    (hsound : s.registry.Sound) (hfile : StateFile.of s.registry cxxNamespace state = .ok file) {g : ClassGlue}
    (hg : g ∈ file.classes) : ∀ name ∈ g.generatedNames, IsWord name := by
  obtain ⟨c, hc, hglue⟩ := exists_of_mem_mapM_ok (StateFile.of_eq_ok hfile).2 g hg
  obtain ⟨rfl, -, hwrappers⟩ := ClassGlue.of_eq_ok hglue
  obtain ⟨hmem, hreaches⟩ := List.mem_filter.1 hc
  have hexposed := ((hsound.regular.reaches_iff hmem).1 hreaches).1
  obtain ⟨hscope, hname⟩ := isWord_of_exposed hdeclared hsound hrun hmem hexposed
  intro name hlisted
  rcases List.mem_append.1 hlisted with hfixed | hwrapper
  · exact BoundClass.isWord_fixedNames hscope hname name hfixed
  · obtain ⟨w, hw, rfl⟩ := List.mem_map.1 hwrapper
    obtain ⟨f, hf, hof⟩ := exists_of_mem_mapM_ok hwrappers w hw
    obtain ⟨hdirect, kind, hkind, hmember⟩ := mem_wrapped hf
    have hown := ((hsound.housed.classes g.bound hmem).members kind hkind f hmember).owned hdirect
    have howner : (f.owner.bind s.registry.class?).getD g.bound = g.bound := by
      rw [hown.owner, Option.bind_some, hsound.regular.class?_eq hmem, Option.getD_some]
    rw [(WrapperFunction.of_eq_ok hof).1]
    change IsWord (((f.owner.bind s.registry.class?).getD g.bound).tag ++ "_member_function_wrapper_" ++ f.name)
    rw [howner, isWord_append, isWord_append]
    exact ⟨⟨isWord_tag.2 ⟨hscope, hname⟩, by decide⟩, isWord_of_member hdeclared hrun hsound hmem hmember hdirect⟩

/-- All that a state file names on its own are words. -/
theorem isWord_of_ownNames (hdeclared : DeclaresWords (DeclarationSource.stream sources))
    (hrun : (start { patches, headers }).runAll (DeclarationSource.stream sources) = (s, none))
    (hsound : s.registry.Sound) (hstate : s.registry.states.contains state = true)
    (hfile : StateFile.of s.registry cxxNamespace state = .ok file) : ∀ name ∈ file.ownNames, IsWord name := by
  obtain ⟨hfunctions, hwrappers⟩ := StateFile.functions_of hfile
  have hfree : ∀ f ∈ file.functions, f.wrapperName = none → IsWord f.freeWrapperName := by
    intro f hf hwrapper
    rw [hfunctions] at hf
    exact isWord_of_function hdeclared hrun (List.mem_filter.1 hf).1 hwrapper
  have hnamed : IsWord state := by
    obtain ⟨d, hd, hmem⟩ := statesNamed_of_run hrun hstate
    exact (hdeclared _ hd).2 state hmem
  intro name hname
  rcases StateFile.mem_ownNames.1 hname with ⟨g, hg, hname⟩ | ⟨f, hf, hwrapper, rfl⟩ | ⟨w, hw, rfl⟩ | hsetup
  · exact isWord_of_glue hdeclared hrun hsound hfile hg name hname
  · exact hfree f hf hwrapper
  · obtain ⟨f, hf, hof⟩ := exists_of_mem_mapM_ok hwrappers w hw
    obtain ⟨hmem, howns⟩ := List.mem_filter.1 hf
    rw [(WrapperFunction.of_eq_ok hof).1]
    exact hfree f hmem (StateFile.ownsWrapper_iff.1 howns).2.2
  · rw [StateFile.state_of hfile] at hsetup
    simp only [List.mem_cons, List.not_mem_nil, or_false] at hsetup
    rcases hsetup with rfl | rfl | rfl
    · exact isWord_append.2 ⟨by decide, hnamed⟩
    · exact isWord_append.2 ⟨by decide, hnamed⟩
    · exact isWord_append.2 ⟨by decide, hnamed⟩

end Run

/-- CORRECT: let everything that is declared be named by words, in scopes that are paths of them. After a run that
succeeds, all that a rendered state file names on its own are words, and so are its other names but for the foreign
ones: wrappers of function types whose result or a parameter is not named by words, and names of thin classes that are
not. So all generated names are words exactly when all recorded function types and all thin classes are named by
words. -/
theorem generated_words_iff (patches : Patches) (headers : NameSet) (sources : List DeclarationSource)
    (summary : Summary) (hselected : (({ patches, headers } : Registry).select sources).outcome = .ok summary)
    (hdeclared : DeclaresWords (DeclarationSource.stream sources)) (cxxNamespace : String) (file : StateFile)
    (hrendered : file ∈ ((({ patches, headers } : Registry).select sources).registry.renderAll cxxNamespace).states) :
    let registry := (({ patches, headers } : Registry).select sources).registry
    (∀ name ∈ file.ownNames, IsWord name)
      ∧ (∀ name ∈ file.generatedNames registry, ¬ IsWord name → registry.IsForeign name)
      ∧ ((∀ name ∈ file.generatedNames registry, IsWord name) ↔ registry.BringsInWords) := by
  intro registry
  obtain ⟨s, hrun, hregistry⟩ := exists_run_of_select hselected
  have hsound : s.registry.Sound := hregistry ▸ (finished_of_run hdeclared.plainNames hselected).sound
  have hkeyed : Keyed registry.signatures := keyed_of_run hselected
  obtain ⟨state, hstate, hfile⟩ := of_mem_renderStates hrendered
  rw [hregistry] at hstate
  have hown : ∀ name ∈ file.ownNames, IsWord name :=
    isWord_of_ownNames hdeclared hrun hsound (NameSet.mem_toList.1 hstate) (hregistry ▸ hfile)
  have hexposed : ∀ c ∈ registry.classes, c.isExposed = true → IsPath c.scope ∧ IsWord c.name := fun c hc =>
    isWord_of_exposed hdeclared hsound hrun (hregistry ▸ hc)
  have hforeign : ∀ name ∈ file.generatedNames registry, ¬ IsWord name → registry.IsForeign name := fun name =>
    isForeign_of_not_isWord hkeyed hexposed hfile hown
  refine ⟨hown, hforeign, bringsInWords_of_isWord hkeyed, fun hbrings name hname => ?_⟩
  by_contra hnoword
  exact hbrings.not_isForeign name (hforeign name hname hnoword)

/-- A file that declares `Mesh`, whose method takes a callback on its points by their names. -/
def meshSource : DeclarationSource where
  path := "mesh.toml"
  text := some "source='mesh.hpp'\n[[class]]\nname='Mesh'\nscope='::Gfx'\ncomment='CUSTOM_ATTRIBUTE[Lua(Main)]'\n[[class.method]]\nname='Each'\nparams=[['visit','void(*)(const Mesh*, std::string)']]"

theorem mesh_names_words : ∃ summary, (Registry.select {} [meshSource]).outcome = .ok summary
    ∧ DeclaresWords (DeclarationSource.stream [meshSource])
    ∧ ∃ file ∈ ((Registry.select {} [meshSource]).registry.renderAll "Glue").states,
      file.protos.map (·.name) = ["Ret_void_Params_ConstMeshPtr_std__string"]
        ∧ file.classes.map (·.wrappers.map (·.name)) = [["__Gfx_Mesh_member_function_wrapper_Each"]]
        ∧ ∀ name ∈ file.generatedNames (Registry.select {} [meshSource]).registry, IsWord name := by
  have hrun : (Registry.select {} [meshSource]).outcome.isOk = true
      ∧ DeclaresWords (DeclarationSource.stream [meshSource])
      ∧ ((Registry.select {} [meshSource]).registry.renderAll "Glue").states.any (fun file =>
        file.protos.map (·.name) == ["Ret_void_Params_ConstMeshPtr_std__string"]
          && file.classes.map (·.wrappers.map (·.name)) == [["__Gfx_Mesh_member_function_wrapper_Each"]]) = true
      ∧ (∀ s ∈ (Registry.select {} [meshSource]).registry.signatures.values, ∀ t ∈ s.result :: s.params,
        t.isNamedByWords = true)
      ∧ ∀ c ∈ (Registry.select {} [meshSource]).registry.classes, c.isExposed = false → IsPath c.scope ∧ IsWord c.name := by
    decide +kernel
  obtain ⟨hok, hdeclared, hany, hsignatures, hthin⟩ := hrun
  obtain ⟨summary, hsummary⟩ := isOk_iff.1 hok
  obtain ⟨file, hfile, hnames⟩ := List.any_eq_true.1 hany
  simp only [Bool.and_eq_true, beq_iff_eq] at hnames
  exact ⟨summary, hsummary, hdeclared, file, hfile, hnames.1, hnames.2,
    (generated_words_iff {} ∅ [meshSource] summary hsummary hdeclared "Glue" file hfile).2.2.2 ⟨hsignatures, hthin⟩⟩

/-- A file that declares `Warn`, which takes a callback on a C string. -/
def warnSource : DeclarationSource where
  path := "warn.toml"
  text := some "source='warn.hpp'\n[[function]]\nname='Warn'\ncomment='CUSTOM_ATTRIBUTE[Lua(Main)]'\nparams=[['report','void(*)(const char*)']]"

/-- The wrapper of the callback has a star in its name, also where it is defined. -/
theorem warn_wrapper_no_word : ∃ summary, (Registry.select {} [warnSource]).outcome = .ok summary
    ∧ DeclaresWords (DeclarationSource.stream [warnSource])
    ∧ (Registry.select {} [warnSource]).registry.signatures.keys = ["Ret_void_Params_Constchar*Ptr"]
    ∧ ∃ file ∈ ((Registry.select {} [warnSource]).registry.renderAll "Glue").states,
      file.protos.map (·.name) = ["Ret_void_Params_Constchar*Ptr"]
        ∧ ¬ ∀ name ∈ file.generatedNames (Registry.select {} [warnSource]).registry, IsWord name := by
  have hrun : (Registry.select {} [warnSource]).outcome.isOk = true
      ∧ DeclaresWords (DeclarationSource.stream [warnSource])
      ∧ (Registry.select {} [warnSource]).registry.signatures.keys = ["Ret_void_Params_Constchar*Ptr"]
      ∧ ((Registry.select {} [warnSource]).registry.renderAll "Glue").states.any (fun file =>
        file.protos.map (·.name) == ["Ret_void_Params_Constchar*Ptr"]
          && (file.generatedNames (Registry.select {} [warnSource]).registry).any fun name => !decide (IsWord name)) = true := by
    decide +kernel
  obtain ⟨hok, hdeclared, hkeys, hany⟩ := hrun
  obtain ⟨summary, hsummary⟩ := isOk_iff.1 hok
  obtain ⟨file, hfile, hnames⟩ := List.any_eq_true.1 hany
  simp only [Bool.and_eq_true, beq_iff_eq, List.any_eq_true, Bool.not_eq_true', decide_eq_false_iff_not] at hnames
  obtain ⟨hprotos, name, hname, hnoword⟩ := hnames
  exact ⟨summary, hsummary, hdeclared, hkeys, file, hfile, hprotos, fun hall => hnoword (hall name hname)⟩

end LuaGlue
