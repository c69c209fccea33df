import LuaGlue.Selection.Run
import Mathlib.Logic.Relation

/-!
What a run does to the registry.

`Registry.Change` lists everything that declarations and requests do to the registry, one constructor for
each kind of registration. A run is a sequence of such changes, and then the functions that name missing
classes are dropped (`run_changes`):

    start ──Change──▶ .. ──Change──▶ complete ──prune──▶ ──thin classes, headers, states──▶ end

So whatever every change keeps holds of the complete registry.
-/

namespace LuaGlue

open Relation Selection

namespace Registry

/-- One registration. -/
inductive Change : Registry → Registry → Prop where
  | mapTemplate (r : Registry) (source target : String) :
    Change r { r with templates := r.templates.insert source target }
  | wrap (r : Registry) {s : Signature} {key : String} (hname : s.wrapperName = .ok key) :
    Change r (r.addSignature key s)
  | expose {r r' : Registry} {name scope source state : String} {id : ClassId}
    (hadd : r.addClass name scope source state = .ok (r', id)) : Change r r'
  | addThin (r : Registry) (name scope source : String) : Change r (r.addThinClass name scope source).1
  | describe (r : Registry) (id : ClassId) (c : DeclaredClass) (luaScope : Option String) :
    Change r (r.modifyClass id (Selection.describe c luaScope))
  /-- The class of a name becomes a base. -/
  | derive {r r' : Registry} {derived base : ClassId} {scope name : String}
    (hbase : r.classId? scope name = some base) (hadd : r.addBase derived base = .ok r') : Change r r'
  | nest (r : Registry) (scope : String) (id : ClassId) : Change r (nestClass r scope id)
  | makeDefault (r : Registry) (id : ClassId) :
    Change r (r.modifyClass id fun c => { c with hasDefaultConstructor := true })
  /-- A member takes one more overload. -/
  | extendMember (r : Registry) {id : ClassId} {c : BoundClass} {f : DeclaredFunction} {o : Overload}
    {result : CxxType} {m : BoundFunction} (hc : r.class? id = some c)
    (hadd : (((c.members (kindOf f)).get? f.name).getD (newMember c f result)).addOverload o = .ok m) :
    Change r (r.modifyClass id fun d => d.withMembers (kindOf f) ((c.members (kindOf f)).insert f.name m))
  /-- A free function takes one more overload under a Lua name. -/
  | extendFunction (r : Registry) {f : DeclaredFunction} {request : FunctionRequest} {index : Nat}
    {luaName : String} {o : Overload} {result : CxxType} {g : BoundFunction}
    (hadd : ((r.functions.get? (Scope.qualify request.scope luaName)).getD
      (newFunction f request index luaName result)).addOverload o = .ok g) :
    Change r { r with functions := r.functions.insert (Scope.qualify request.scope luaName) g }
  /-- A native wrapper stands for a free function. -/
  | bindWrapper (r : Registry) (f : DeclaredFunction) (request : FunctionRequest) (name : String × Nat) :
    Change r { r with functions := addCustomName f request r.functions name }
  | enter {r r' : Registry} {e : BoundEnum} (hadd : r.addEnum e = .ok r') : Change r r'
  | redirect (r : Registry) (c : BoundClass) (request : RedirectorRequest) (wrapper source : String) :
    Change r (r.modifyClass c.id fun d =>
      let kind := if request.isStatic then MemberKind.static else .function
      d.withMembers kind ((d.members kind).insert request.function
        { wrappedMember c request.function wrapper source with
          isStatic := request.isStatic, sharesHeader := false }))
  | implement (r : Registry) (c : BoundClass) (name wrapper source : String) :
    Change r (r.modifyClass c.id fun d => d.withMembers .metamethod
      ((d.members .metamethod).insert name (wrappedMember c name wrapper source)))
  | includeHeader (r : Registry) (header : String) :
    Change r { r with headers := r.headers.insert header }

/-- Registrations one after another. -/
def Changes : Registry → Registry → Prop := ReflTransGen Change

/-- What every registration keeps holds in the end. -/
theorem Changes.keeps {P : Registry → Prop} (hstep : ∀ {r r'}, Change r r' → P r → P r') {r r' : Registry}
    (h : Changes r r') (hr : P r) : P r' := by
  induction h with
  | refl => exact hr
  | tail _ hchange ih => exact hstep hchange ih

theorem Changes.refl (r : Registry) : Changes r r := ReflTransGen.refl

theorem Changes.trans {r r' r'' : Registry} (h : Changes r r') (h' : Changes r' r'') : Changes r r'' :=
  ReflTransGen.trans h h'

theorem Change.once {r r' : Registry} (h : Change r r') : Changes r r' := .single h

theorem changes_includeAll (r : Registry) (headers : List String) :
    Changes r { r with headers := r.headers.insertAll headers } := by
  rw [NameSet.insertAll]
  induction headers generalizing r with
  | nil => exact .refl r
  | cons header rest ih => exact (Change.includeHeader r header).once.trans (ih _)

/-! ### Classes -/

/-- A class is nested in another one, or in none. -/
theorem nestClass_cases (r : Registry) (scope : String) (id : ClassId) :
    nestClass r scope id = r ∨ ∃ outer, nestClass r scope id = r.modifyClass outer (enclose id) := by
  rw [nestClass]
  split
  · exact .inl rfl
  · simp only
    split
    · next outer _ => exact .inr ⟨outer, rfl⟩
    · exact .inl rfl

/-- What holds with the base as a thin class, and with an accepted edge to it, holds with one more base. -/
theorem keeps_addBaseNamed {P : Registry → Prop} {r : Registry} (id : ClassId) (base : String)
    (hthin : P (r.addThinClass (Scope.splitQualified base).2 (Scope.splitQualified base).1 "").1)
    (hbase : ∀ {r'}, (r.addThinClass (Scope.splitQualified base).2 (Scope.splitQualified base).1 "").1.addBase id
      (r.addThinClass (Scope.splitQualified base).2 (Scope.splitQualified base).1 "").2 = .ok r' → P r') :
    P (addBaseNamed r id base).1 := by
  rw [addBaseNamed]
  simp only
  split
  · next hadd => exact hbase hadd
  · exact hthin

/-- What every base keeps holds with all of them. -/
theorem keeps_addBasesNamed {P : Registry → Prop} {id : ClassId}
    (hstep : ∀ r base, P r → P (addBaseNamed r id base).1) {r : Registry} (hr : P r) (bases : List String) :
    P (addBasesNamed r id bases).1 := by
  induction bases generalizing r with
  | nil => exact hr
  | cons base rest ih =>
    have hfirst := hstep r base hr
    rw [addBasesNamed]
    split
    · next h =>
      rw [h] at hfirst
      exact ih hfirst
    · next h =>
      rw [h] at hfirst
      exact hfirst

/-- A class that was looked for to be added has its id. -/
theorem classId?_addThinClass (r : Registry) (name scope source : String) :
    (r.addThinClass name scope source).1.classId? scope name = some (r.addThinClass name scope source).2 := by
  rw [addThinClass]
  split
  · next hfree =>
    rw [find?] at hfree
    rw [classId?, find?, appendClass, List.find?_append, hfree]
    simp [BoundClass.qualified]
  · next c hfind => rw [classId?, hfind, Option.map_some]

theorem changes_addBaseNamed (r : Registry) (id : ClassId) (base : String) :
    Changes r (addBaseNamed r id base).1 :=
  keeps_addBaseNamed id base (Change.addThin ..).once
    fun hadd => (Change.addThin ..).once.trans (Change.derive (classId?_addThinClass ..) hadd).once

theorem changes_addBasesNamed (r : Registry) (id : ClassId) (bases : List String) :
    Changes r (addBasesNamed r id bases).1 :=
  keeps_addBasesNamed (fun r' base h => h.trans (changes_addBaseNamed r' id base)) (.refl r) bases

/-! ### Function types -/

theorem changes_addSignatures (r : Registry) (signatures : List Signature) :
    Changes r (r.addSignatures signatures).1 := by
  induction signatures generalizing r with
  | nil => exact .refl r
  | cons s rest ih =>
    rw [addSignatures]
    split
    · next key hname => exact (Change.wrap r hname).once.trans (ih _)
    · exact .refl r

end Registry

namespace Selection

open Registry

theorem changes_wrapSignatures (s : Selection) (t : CxxType) :
    Changes s.registry (s.wrapSignatures t).registry := by
  have h := changes_addSignatures s.registry t.signatures
  rw [wrapSignatures, registerSignatures]
  split
  · next hadd =>
    rw [hadd] at h
    exact h
  · next hadd =>
    rw [hadd] at h
    exact h

theorem changes_foldl {α : Type} {step : Selection → α → Selection}
    (hstep : ∀ s a, Changes s.registry (step s a).registry) (s : Selection) (l : List α) :
    Changes s.registry (l.foldl step s).registry := by
  induction l generalizing s with
  | nil => exact .refl _
  | cons a l ih => exact (hstep s a).trans (ih _)

theorem changes_wrapAll (s : Selection) (o : Overload) (result : CxxType) :
    Changes s.registry (s.wrapAll o result).registry :=
  changes_foldl changes_wrapSignatures s _

/-! ### The first pass -/

theorem changes_learn (s : Selection) (d : Declaration) : Changes s.registry (s.learn d).registry := by
  rw [learn, heed]
  split
  · exact .refl _
  · exact .refl _
  · next request _ =>
    unfold accept
    split
    · exact (Change.mapTemplate ..).once
    · exact .refl _
    · exact .refl _

theorem changes_learnAll (s : Selection) (stream : List (Except DeclarationError Declaration)) :
    Changes s.registry (s.learnAll stream).1.registry := by
  induction stream generalizing s with
  | nil => exact .refl _
  | cons item rest ih =>
    cases item with
    | error e => exact .refl _
    | ok d => exact (changes_learn s d).trans (ih _)

/-! ### The second pass -/

theorem changes_placeClass (s : Selection) (c : DeclaredClass) :
    Changes s.registry (s.placeClass c).1.registry := by
  rw [placeClass]
  simp only
  split
  · exact (Change.addThin ..).once
  · split
    · exact .refl _
    · next hadd => exact (Change.expose hadd).once.trans (Change.describe ..).once

theorem changes_registerClass (s : Selection) (c : DeclaredClass) :
    Changes s.registry (s.registerClass c).1.registry := by
  have hplace := changes_placeClass s c
  rw [registerClass]
  split
  · next s' h => rwa [h] at hplace
  · next s' id h =>
    rw [h] at hplace
    have hbases := changes_addBasesNamed s'.registry id c.bases
    split
    · next registry abort h' =>
      rw [h'] at hbases
      exact hplace.trans hbases
    · next registry h' =>
      rw [h'] at hbases
      exact (hplace.trans hbases).trans (Change.nest ..).once

theorem changes_addMember (s : Selection) (id : ClassId) (f : DeclaredFunction) (o : Overload)
    (result : CxxType) : Changes s.registry (s.addMember id f o result).registry := by
  rw [addMember]
  split
  · exact .refl _
  · next c hc =>
    simp only
    split
    · next m hadd =>
      have hmember := (Change.extendMember s.registry hc hadd).once
      exact hmember.trans (changes_wrapAll (s.modifyClass id _) o result)
    · exact .refl _

theorem changes_withSignature (s : Selection) (f : DeclaredFunction) {bind : Overload → CxxType → Selection}
    (h : ∀ o result, Changes s.registry (bind o result).registry) :
    Changes s.registry (s.withSignature f bind).registry := by
  rw [withSignature]
  split
  · exact .refl _
  · exact h _ _

theorem changes_registerMember (s : Selection) (f : DeclaredFunction) :
    Changes s.registry (s.registerMember f).registry := by
  rw [registerMember]
  split
  · exact .refl _
  · next id _ =>
    split
    · exact (Change.makeDefault ..).once
    · split
      · exact .refl _
      · split
        · exact .refl _
        · exact changes_withSignature s f (changes_addMember s id f)

theorem changes_addNames (s : Selection) (f : DeclaredFunction) (request : FunctionRequest) (o : Overload)
    (result : CxxType) (index : Nat) (taken : Bool) (names : List String) :
    Changes s.registry (s.addNames f request o result index taken names).1.registry := by
  induction names generalizing s index taken with
  | nil => exact .refl _
  | cons luaName rest ih =>
    rw [addNames]
    simp only
    split
    · next g hadd =>
      have hfunction := (Change.extendFunction s.registry hadd).once
      exact hfunction.trans (ih (s.withRegistry _) (index + 1) true)
    · exact ih (s.note _) (index + 1) taken

theorem changes_addFunction (s : Selection) (f : DeclaredFunction) (request : FunctionRequest) :
    Changes s.registry (s.addFunction f request).registry := by
  refine changes_withSignature s f fun o result => ?_
  have hnames := changes_addNames s f request o result 0 false request.names
  split
  · next s' h =>
    rw [h] at hnames
    exact hnames.trans (changes_wrapAll s' o result)
  · next s' h => rwa [h] at hnames

theorem changes_addCustomFunction (s : Selection) (f : DeclaredFunction) (request : FunctionRequest) :
    Changes s.registry (s.addCustomFunction f request).registry := by
  have hnames : ∀ (r : Registry) (names : List (String × Nat)),
      Changes r { r with functions := names.foldl (addCustomName f request) r.functions } := by
    intro r names
    induction names generalizing r with
    | nil => exact .refl r
    | cons name rest ih => exact (Change.bindWrapper r f request name).once.trans (ih _)
  exact hnames s.registry _

theorem changes_registerFunction (s : Selection) (f : DeclaredFunction) :
    Changes s.registry (s.registerFunction f).registry := by
  unfold registerFunction
  simp only
  split
  · exact .refl _
  · split
    · exact .refl _
    · split
      · exact changes_addCustomFunction s f _
      · split
        · exact changes_addFunction s f _
        · split
          · exact changes_addFunction s f _
          · exact .refl _

theorem changes_registerEnum (s : Selection) (e : DeclaredEnum) :
    Changes s.registry (s.registerEnum e).registry := by
  rw [registerEnum]
  split
  · exact .refl _
  · split
    · next hadd => exact (Change.enter hadd).once
    · exact .refl _

theorem changes_register (s : Selection) (d : Declaration) :
    Changes s.registry (s.register d).1.registry := by
  cases d with
  | remark => exact .refl _
  | record c => exact changes_registerClass s c
  | function f =>
    rw [register]
    simp only
    split
    · exact changes_registerMember s f
    · exact changes_registerFunction s f
  | enum e => exact changes_registerEnum s e

/-- What every declaration keeps holds after all of them. -/
theorem registerAll_induction {P : Selection → Prop} (hstep : ∀ s d, P s → P (s.register d).1) {s : Selection}
    (hs : P s) (stream : List (Except DeclarationError Declaration)) : P (s.registerAll stream).1 := by
  induction stream generalizing s with
  | nil => exact hs
  | cons item rest ih =>
    cases item with
    | error e => exact hs
    | ok d =>
      have hfirst := hstep s d hs
      rw [registerAll]
      split
      · next h =>
        rw [h] at hfirst
        exact ih hfirst
      · next h =>
        rw [h] at hfirst
        exact hfirst

theorem changes_registerAll (s : Selection) (stream : List (Except DeclarationError Declaration)) :
    Changes s.registry (s.registerAll stream).1.registry :=
  registerAll_induction (P := fun t => Changes s.registry t.registry)
    (fun t d h => h.trans (changes_register t d)) (.refl _) stream

/-! ### The end -/

theorem changes_addRequestedBase (s : Selection) (derived base : String) :
    Changes s.registry (s.addRequestedBase derived base).1.registry := by
  rw [addRequestedBase]
  simp only
  split
  · exact .refl _
  · exact changes_addBaseNamed ..

/-- What every requested base keeps holds with all of them. -/
theorem addRequestedBases_induction {P : Selection → Prop}
    (hstep : ∀ s derived base, P s → P (s.addRequestedBase derived base).1) {s : Selection} (hs : P s)
    (bases : List (String × String)) : P (s.addRequestedBases bases).1 := by
  induction bases generalizing s with
  | nil => exact hs
  | cons edge rest ih =>
    obtain ⟨derived, base⟩ := edge
    have hfirst := hstep s derived base hs
    rw [addRequestedBases]
    split
    · next h =>
      rw [h] at hfirst
      exact ih hfirst
    · exact hfirst

theorem changes_addRequestedBases (s : Selection) (bases : List (String × String)) :
    Changes s.registry (s.addRequestedBases bases).1.registry :=
  addRequestedBases_induction (P := fun t => Changes s.registry t.registry)
    (fun t derived base h => h.trans (changes_addRequestedBase t derived base)) (.refl _) bases

theorem changes_attachRedirector (s : Selection) (p : Pending RedirectorRequest) :
    Changes s.registry (s.attachRedirector p).registry := by
  rw [attachRedirector]
  simp only
  split
  · exact .refl _
  · next c _ => exact (Change.redirect s.registry c p.request p.wrapper p.source).once

theorem changes_attachMetamethod (s : Selection) (p : Pending MetamethodRequest) :
    Changes s.registry (s.attachMetamethod p).registry := by
  rw [attachMetamethod]
  simp only
  split
  · exact .refl _
  · split
    · exact .refl _
    · next c _ =>
      have hmember := (Change.implement s.registry c p.request.metamethod p.wrapper p.source).once
      split
      · exact hmember
      · exact hmember.trans (Change.includeHeader ..).once

/-- The registry after a run: what names missing classes is dropped, and the states are published. -/
def settled (s : Selection) : Registry :=
  { s.dropUnresolved.registry with
    states := s.dropUnresolved.registry.states.insertAll s.dropUnresolved.states.toList }

theorem changes_finish {s finished : Selection} (h : s.finish = (finished, none)) :
    ∃ complete : Selection, Changes s.registry complete.registry ∧ finished.registry = complete.settled := by
  unfold finish at h
  split at h
  · cases h
  · next based hbased =>
    have hbases := changes_addRequestedBases s s.requests.bases
    rw [hbased] at hbases
    have hredirectors := changes_foldl changes_attachRedirector based based.redirectors
    have hmetamethods := changes_foldl changes_attachMetamethod
      (based.redirectors.foldl attachRedirector based) (based.redirectors.foldl attachRedirector based).metamethods
    cases h
    exact ⟨_, (hbases.trans hredirectors).trans hmetamethods, rfl⟩

/-- A run that succeeds makes changes up to a complete registry, and settles that. -/
theorem run_changes {registry : Registry} {stream : List (Except DeclarationError Declaration)}
    {s : Selection} (h : (start registry).runAll stream = (s, none)) :
    ∃ complete : Selection, Changes registry complete.registry ∧ s.registry = complete.settled := by
  have hheaders := changes_includeAll registry registry.patches.headers
  unfold runAll at h
  split at h
  · cases h
  · next learned hlearn =>
    have hlearned := changes_learnAll (start registry) stream
    rw [hlearn] at hlearned
    split at h
    · cases h
    · next registered hregister =>
      have hregistered := changes_registerAll learned stream
      rw [hregister] at hregistered
      split at h
      · cases h
      · next finished hfinish =>
        cases h
        obtain ⟨complete, hcomplete, hsettled⟩ := changes_finish hfinish
        exact ⟨complete, ((hheaders.trans hlearned).trans hregistered).trans hcomplete, hsettled⟩

/-- Where declarations are selected from files, a run over them succeeds. -/
theorem exists_run_of_select {registry : Registry} {sources : List DeclarationSource} {summary : Summary}
    (h : (registry.select sources).outcome = .ok summary) :
    ∃ s, (start registry).runAll (DeclarationSource.stream sources) = (s, none)
      ∧ (registry.select sources).registry = s.registry := by
  unfold Registry.select at h ⊢
  split at h
  · next s hrun => exact ⟨s, hrun, rfl⟩
  · cases h

end Selection

end LuaGlue
