import LuaGlue.Proofs.Isolation.Isolated

/-!
What the second pass leaves to the first.

The second pass answers declarations by the requests, and reads types by the names, templates and patches.
It changes none of these (`learned_registerAll`), so a declaration is answered the same wherever it stands.
Classes, members and enums are registered `Aside`: the free functions stay as they are, and so do the native
wrappers that wait for their classes.
-/

namespace LuaGlue

/-- Has nothing changed but the classes? -/
def Registry.OnlyClasses (r r' : Registry) : Prop := r' = { r with classes := r'.classes }

namespace Registry

theorem OnlyClasses.refl (r : Registry) : OnlyClasses r r := rfl

theorem OnlyClasses.trans {r r' r'' : Registry} (h : OnlyClasses r r') (h' : OnlyClasses r' r'') :
    OnlyClasses r r'' := by
  rw [OnlyClasses, h', h]

theorem onlyClasses_addThinClass (r : Registry) (name scope source : String) :
    OnlyClasses r (r.addThinClass name scope source).1 := by
  rw [addThinClass]
  split <;> rfl

theorem onlyClasses_addClass {r r' : Registry} {name scope source state : String} {id : ClassId}
    (h : r.addClass name scope source state = .ok (r', id)) : OnlyClasses r r' := by
  obtain ⟨-, rfl, -⟩ | ⟨c, -, -, rfl, -⟩ := addClass_cases h <;> rfl

theorem onlyClasses_addBaseNamed (r : Registry) (id : ClassId) (base : String) :
    OnlyClasses r (Selection.addBaseNamed r id base).1 := by
  have hthin := onlyClasses_addThinClass r (Scope.splitQualified base).2 (Scope.splitQualified base).1 ""
  refine keeps_addBaseNamed id base hthin fun hadd => ?_
  obtain ⟨-, rfl⟩ := addBase_ok hadd
  exact hthin.trans rfl

theorem onlyClasses_addBasesNamed (r : Registry) (id : ClassId) (bases : List String) :
    OnlyClasses r (Selection.addBasesNamed r id bases).1 :=
  keeps_addBasesNamed (fun r' base h => h.trans (onlyClasses_addBaseNamed r' id base)) (.refl r) bases

theorem onlyClasses_nestClass (r : Registry) (scope : String) (id : ClassId) :
    OnlyClasses r (Selection.nestClass r scope id) := by
  obtain hsame | ⟨outer, hnested⟩ := nestClass_cases r scope id
  · rw [hsame]
    exact .refl r
  · rw [hnested]
    rfl

end Registry

namespace Selection

open Registry

/-- What a step keeps of the first pass: the requests, and what types are read by. -/
structure Learned (s t : Selection) : Prop where
  requests : t.requests = s.requests
  known : t.known = s.known
  templates : t.registry.templates = s.registry.templates
  patches : t.registry.patches = s.registry.patches

/-- A step that binds no free function and lets no native wrapper wait. -/
structure Aside (s t : Selection) : Prop extends Learned s t where
  functions : t.registry.functions = s.registry.functions
  redirectors : t.redirectors = s.redirectors
  metamethods : t.metamethods = s.metamethods

theorem Learned.refl (s : Selection) : Learned s s := ⟨rfl, rfl, rfl, rfl⟩

theorem Learned.trans {s t u : Selection} (h : Learned s t) (h' : Learned t u) : Learned s u :=
  ⟨h'.requests.trans h.requests, h'.known.trans h.known, h'.templates.trans h.templates,
    h'.patches.trans h.patches⟩

theorem Learned.signature {s t : Selection} (h : Learned s t) (f : DeclaredFunction) :
    t.signature f = s.signature f := by
  rw [Selection.signature, Selection.signature, Spelling.Context.of, Spelling.Context.of, h.known, h.templates,
    h.patches]

theorem Aside.refl (s : Selection) : Aside s s := ⟨.refl s, rfl, rfl, rfl⟩

theorem Aside.trans {s t u : Selection} (h : Aside s t) (h' : Aside t u) : Aside s u :=
  ⟨h.toLearned.trans h'.toLearned, h'.functions.trans h.functions, h'.redirectors.trans h.redirectors,
    h'.metamethods.trans h.metamethods⟩

/-- A step on the classes. -/
theorem Aside.of_onlyClasses {s : Selection} {r : Registry} (h : OnlyClasses s.registry r) :
    Aside s (s.withRegistry r) := by
  have hregistry : r = { s.registry with classes := r.classes } := h
  rw [hregistry]
  exact ⟨⟨rfl, rfl, rfl, rfl⟩, rfl, rfl, rfl⟩

theorem Aside.of_recording {s t : Selection} (h : Recording s t) : Aside s t := by
  obtain ⟨hrest, ⟨hregistry, -, -⟩⟩ := h
  rw [hrest, hregistry]
  exact ⟨⟨rfl, rfl, rfl, rfl⟩, rfl, rfl, rfl⟩

/-! ### The first pass -/

/-- A comment tells no names. -/
theorem known_heed (s : Selection) (comment : String) : (s.heed comment).known = s.known := by
  unfold heed
  split
  · rfl
  · rfl
  · unfold accept
    split <;> rfl

theorem known_learn (s : Selection) (d : Declaration) : (s.learn d).known = learnName s.known d := by
  rw [learn, known_heed]

/-- The first pass learns names, requests and templates, and nothing else. -/
theorem learn_rest (s : Selection) (d : Declaration) : ∃ templates known requests notices,
    s.learn d = { s with registry := { s.registry with templates }, known, requests, notices } := by
  rw [learn, heed]
  split
  · exact ⟨_, _, _, _, rfl⟩
  · exact ⟨_, _, _, _, rfl⟩
  · unfold accept
    split <;> exact ⟨_, _, _, _, rfl⟩

theorem learnAll_rest (s : Selection) (stream : List (Except DeclarationError Declaration)) :
    ∃ templates known requests notices,
      (s.learnAll stream).1 = { s with registry := { s.registry with templates }, known, requests, notices } := by
  induction stream generalizing s with
  | nil => exact ⟨_, _, _, _, rfl⟩
  | cons item rest ih =>
    cases item with
    | error e => exact ⟨_, _, _, _, rfl⟩
    | ok d =>
      obtain ⟨_, _, _, _, hfirst⟩ := learn_rest s d
      obtain ⟨templates, known, requests, notices, hrest⟩ := ih (s.learn d)
      refine ⟨templates, known, requests, notices, ?_⟩
      rw [learnAll, hrest, hfirst]

/-! ### Classes, members and enums -/

theorem aside_placeClass (s : Selection) (c : DeclaredClass) : Aside s (s.placeClass c).1 := by
  have hleft : Aside s { s with current := none } := ⟨⟨rfl, rfl, rfl, rfl⟩, rfl, rfl, rfl⟩
  rw [placeClass]
  simp only
  split
  · have hthin : Aside { s with current := none } (({ s with current := none } : Selection).withRegistry _) :=
      .of_onlyClasses (onlyClasses_addThinClass s.registry c.name c.scope c.source)
    exact (hleft.trans hthin).trans ⟨⟨rfl, rfl, rfl, rfl⟩, rfl, rfl, rfl⟩
  · split
    · exact ⟨⟨rfl, rfl, rfl, rfl⟩, rfl, rfl, rfl⟩
    · next registry id hadd =>
      have hclass : Aside { s with current := none }
          (({ s with current := none } : Selection).withRegistry registry) :=
        .of_onlyClasses (onlyClasses_addClass hadd)
      exact (hleft.trans hclass).trans ⟨⟨rfl, rfl, rfl, rfl⟩, rfl, rfl, rfl⟩

theorem aside_registerClass (s : Selection) (c : DeclaredClass) : Aside s (s.registerClass c).1 := by
  have hplaced := aside_placeClass s c
  rw [registerClass]
  split
  · next t heq =>
    rw [heq] at hplaced
    exact hplaced
  · next t id heq =>
    rw [heq] at hplaced
    have hbases := onlyClasses_addBasesNamed t.registry id c.bases
    split
    · next registry abort hadd =>
      rw [hadd] at hbases
      exact hplaced.trans (.of_onlyClasses hbases)
    · next registry hadd =>
      rw [hadd] at hbases
      exact hplaced.trans (.of_onlyClasses (hbases.trans (onlyClasses_nestClass registry c.scope id)))

theorem aside_withSignature (s : Selection) (f : DeclaredFunction) {bind : Overload → CxxType → Selection}
    (h : ∀ o result, Aside s (bind o result)) : Aside s (s.withSignature f bind) := by
  rw [withSignature]
  split
  · exact ⟨⟨rfl, rfl, rfl, rfl⟩, rfl, rfl, rfl⟩
  · exact h _ _

theorem aside_addMember (s : Selection) (id : ClassId) (f : DeclaredFunction) (o : Overload)
    (result : CxxType) : Aside s (s.addMember id f o result) := by
  rw [addMember]
  split
  · exact .refl s
  · simp only
    split
    · refine Aside.trans ?_ (.of_recording (wrapAll_spec _ o result).1)
      exact ⟨⟨rfl, rfl, rfl, rfl⟩, rfl, rfl, rfl⟩
    · exact ⟨⟨rfl, rfl, rfl, rfl⟩, rfl, rfl, rfl⟩

theorem aside_registerMember (s : Selection) (f : DeclaredFunction) : Aside s (s.registerMember f) := by
  have hnote : ∀ n, Aside s (s.note n) := fun _ => ⟨⟨rfl, rfl, rfl, rfl⟩, rfl, rfl, rfl⟩
  rw [registerMember]
  split
  · exact hnote _
  · next id _ =>
    split
    · exact ⟨⟨rfl, rfl, rfl, rfl⟩, rfl, rfl, rfl⟩
    · split
      · exact hnote _
      · split
        · exact hnote _
        · exact aside_withSignature s f (aside_addMember s id f)

theorem aside_registerEnum (s : Selection) (e : DeclaredEnum) : Aside s (s.registerEnum e) := by
  rw [registerEnum]
  split
  · exact ⟨⟨rfl, rfl, rfl, rfl⟩, rfl, rfl, rfl⟩
  · split
    · next hadd =>
      obtain ⟨-, rfl⟩ := addEnum_ok hadd
      exact ⟨⟨rfl, rfl, rfl, rfl⟩, rfl, rfl, rfl⟩
    · exact ⟨⟨rfl, rfl, rfl, rfl⟩, rfl, rfl, rfl⟩

/-- Everything but a free function is registered aside. -/
theorem aside_register (s : Selection) {d : Declaration} (h : ∀ f, d = .function f → f.owner.isSome = true) :
    Aside s (s.register d).1 := by
  cases d with
  | remark => exact .refl s
  | record c => exact aside_registerClass s c
  | function f =>
    rw [register]
    simp only
    rw [if_pos (h f rfl)]
    exact aside_registerMember s f
  | enum e => exact aside_registerEnum s e

/-! ### Free functions -/

/-- A free function that is bound is all that changes, with its function types. -/
theorem addFunction_rest (s : Selection) (f : DeclaredFunction) (request : FunctionRequest) :
    ∃ functions signatures states skipped notices, s.addFunction f request
      = { s with registry := { s.registry with functions, signatures }, states, skipped, notices } := by
  rw [addFunction, withSignature]
  split
  · exact ⟨s.registry.functions, s.registry.signatures, s.states, _, _, rfl⟩
  · next o result _ =>
    obtain ⟨functions, notices, hnames⟩ := addNames_rest s f request o result 0 false request.names
    split
    · next t heq =>
      rw [heq] at hnames
      obtain ⟨hrest, hregistry⟩ := (wrapAll_spec t o result).1
      rw [hrest, hregistry.rest, show t = _ from hnames]
      exact ⟨functions, _, _, s.skipped, _, rfl⟩
    · next t heq =>
      rw [heq] at hnames
      rw [show t = _ from hnames]
      exact ⟨functions, s.registry.signatures, s.states, s.skipped, notices, rfl⟩

/-- A free function leaves the classes alone. -/
theorem registerFunction_rest (s : Selection) (f : DeclaredFunction) :
    ∃ functions signatures redirectors metamethods states skipped notices, s.registerFunction f
      = { s with
          registry := { s.registry with functions, signatures }
          redirectors, metamethods, states, skipped, notices } := by
  unfold registerFunction
  simp only
  split
  · exact ⟨s.registry.functions, s.registry.signatures, _, _, _, _, _, rfl⟩
  · split
    · exact ⟨s.registry.functions, s.registry.signatures, _, _, _, _, _, rfl⟩
    · split
      · exact ⟨_, s.registry.signatures, _, _, _, _, _, rfl⟩
      · have hbound : ∀ request, ∃ functions signatures redirectors metamethods states skipped notices,
            s.addFunction f request = { s with
              registry := { s.registry with functions, signatures }
              redirectors, metamethods, states, skipped, notices } := by
          intro request
          obtain ⟨functions, signatures, states, skipped, notices, heq⟩ := addFunction_rest s f request
          exact ⟨functions, signatures, s.redirectors, s.metamethods, states, skipped, notices, heq⟩
        split
        · exact hbound _
        · split
          · exact hbound _
          · exact ⟨s.registry.functions, s.registry.signatures, _, _, _, _, _, rfl⟩

theorem learned_registerFunction (s : Selection) (f : DeclaredFunction) : Learned s (s.registerFunction f) := by
  obtain ⟨functions, signatures, redirectors, metamethods, states, skipped, notices, heq⟩ := registerFunction_rest s f
  rw [heq]
  exact ⟨rfl, rfl, rfl, rfl⟩

/-! ### The second pass -/

theorem learned_register (s : Selection) (d : Declaration) : Learned s (s.register d).1 := by
  by_cases haside : ∀ f, d = .function f → f.owner.isSome = true
  · exact (aside_register s haside).toLearned
  · push Not at haside
    obtain ⟨f, rfl, hfree⟩ := haside
    rw [register]
    simp only
    rw [if_neg hfree]
    exact learned_registerFunction s f

theorem learned_registerAll (s : Selection) (stream : List (Except DeclarationError Declaration)) :
    Learned s (s.registerAll stream).1 :=
  registerAll_induction (fun t d h => h.trans (learned_register t d)) (.refl s) stream

/-! ### The end -/

theorem aside_addRequestedBases (s : Selection) (bases : List (String × String)) :
    Aside s (s.addRequestedBases bases).1 := by
  refine addRequestedBases_induction (fun t derived base h => h.trans ?_) (.refl s) bases
  rw [addRequestedBase]
  simp only
  split
  · exact ⟨⟨rfl, rfl, rfl, rfl⟩, rfl, rfl, rfl⟩
  · exact .of_onlyClasses (onlyClasses_addBaseNamed _ _ base)

theorem aside_attachRedirector (s : Selection) (p : Pending RedirectorRequest) : Aside s (s.attachRedirector p) := by
  rw [attachRedirector]
  simp only
  split <;> exact ⟨⟨rfl, rfl, rfl, rfl⟩, rfl, rfl, rfl⟩

theorem aside_attachMetamethod (s : Selection) (p : Pending MetamethodRequest) : Aside s (s.attachMetamethod p) := by
  rw [attachMetamethod]
  simp only
  split
  · exact ⟨⟨rfl, rfl, rfl, rfl⟩, rfl, rfl, rfl⟩
  · split
    · exact ⟨⟨rfl, rfl, rfl, rfl⟩, rfl, rfl, rfl⟩
    · split <;> exact ⟨⟨rfl, rfl, rfl, rfl⟩, rfl, rfl, rfl⟩

theorem aside_foldl {α : Type} {step : Selection → α → Selection} (hstep : ∀ s a, Aside s (step s a))
    (s : Selection) (l : List α) : Aside s (l.foldl step s) := by
  induction l generalizing s with
  | nil => exact .refl s
  | cons a l ih => exact (hstep s a).trans (ih _)

/-- Bases and native wrappers are attached to classes. -/
theorem aside_assembled (s : Selection) : Aside s s.assembled :=
  keeps_assembled (fun t p ht => ht.trans (aside_attachRedirector t p))
    (fun t p ht => ht.trans (aside_attachMetamethod t p)) (aside_addRequestedBases s s.requests.bases)

/-- A run without an error. -/
theorem eq_of_ends {run : Selection × Option SelectionError} (h : run.2 = none) : run = (run.1, none) := by
  obtain ⟨s, stop⟩ := run
  cases h
  rfl

/-- A run that succeeds goes through both passes, and settles what it has assembled. -/
theorem passes_of_run {registry : Registry} {stream : List (Except DeclarationError Declaration)} {s : Selection}
    (h : (start registry).runAll stream = (s, none)) :
    ((start registry).learnAll stream).2 = none
      ∧ (((start registry).learnAll stream).1.registerAll stream).2 = none
      ∧ s.registry = ((start registry).complete stream).settled := by
  unfold runAll at h
  split at h
  · cases h
  · next t hlearn =>
    split at h
    · cases h
    · next u hregister =>
      split at h
      · cases h
      · next v hfinish =>
        cases h
        have hsettled : s.registry = u.assembled.settled := by
          rcases u.finish_cases with ⟨cause, -, hstop⟩ | ⟨-, w, hend, hsettled⟩
          · rw [hfinish] at hstop
            cases hstop
          · rw [hfinish] at hend
            cases hend
            exact hsettled
        rw [complete, hlearn, hregister]
        exact ⟨rfl, rfl, hsettled⟩

end Selection

end LuaGlue
