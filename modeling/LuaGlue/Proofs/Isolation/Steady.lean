import LuaGlue.Proofs.Selection.Learned

/-!
What a run reports, and what it registers.

A run counts what it skips and writes notices, and it never looks at either again. So a step does the same in a
state that has counted more and noted other things (`Selection.Steady`), and only members look at the current class:
every other step does the same in a state with another one.

    s            ──step──▶ t
    s.recount    ──step──▶ t.recount
-/

namespace LuaGlue.Selection

/-- The state with another current class, with more things that are left out, and with other notices. -/
def recount (s : Selection) (current : Option ClassId) (more : Nat) (notices : List Notice) : Selection :=
  { s with current, skipped := more + s.skipped, notices }

/-- Does the step do the same whatever has been counted and noted, and whatever class is current? -/
def Steady (step : Selection → Selection) : Prop :=
  ∀ s current more notices, ∃ notices', step (s.recount current more notices) = (step s).recount current more notices'

/-- Does the step do the same, and answer the same, whatever has been counted and noted? -/
def SteadyAnswer {α : Type} (step : Selection → Selection × α) : Prop :=
  ∀ s current more notices, ∃ notices',
    step (s.recount current more notices) = ((step s).1.recount current more notices', (step s).2)

theorem Steady.comp {first next : Selection → Selection} (hfirst : Steady first) (hnext : Steady next) :
    Steady fun s => next (first s) := by
  intro s current more notices
  obtain ⟨middle, hmiddle⟩ := hfirst s current more notices
  obtain ⟨last, hlast⟩ := hnext (first s) current more middle
  exact ⟨last, by simp only [hmiddle, hlast]⟩

theorem Steady.foldl {α : Type} {step : Selection → α → Selection} (h : ∀ a, Steady fun s => step s a) (l : List α) :
    Steady fun s => l.foldl step s := by
  induction l with
  | nil => exact fun s current more notices => ⟨notices, rfl⟩
  | cons a l ih => exact (h a).comp ih

/-! ### Function types -/

theorem steady_wrapSignatures (t : CxxType) : Steady fun s => s.wrapSignatures t := by
  intro s current more notices
  have hregistry : (s.recount current more notices).registry = s.registry := rfl
  simp only [wrapSignatures, hregistry]
  split <;> exact ⟨_, rfl⟩

theorem steady_wrapAll (o : Overload) (result : CxxType) : Steady fun s => s.wrapAll o result :=
  .foldl steady_wrapSignatures _

/-! ### Members -/

theorem steady_addMember (id : ClassId) (f : DeclaredFunction) (o : Overload) (result : CxxType) :
    Steady fun s => s.addMember id f o result := by
  intro s current more notices
  have hregistry : (s.recount current more notices).registry = s.registry := rfl
  simp only [addMember, hregistry]
  split
  · exact ⟨_, rfl⟩
  · next c _ =>
    split
    · next m _ =>
      exact steady_wrapAll o result
        (s.modifyClass id fun d => d.withMembers (kindOf f) ((c.members (kindOf f)).insert f.name m)) current more notices
    · exact ⟨_, rfl⟩

/-- A function that is read goes on steadily, and one that is not read is skipped. -/
theorem steady_withSignature (f : DeclaredFunction) {bind : Overload → CxxType → Selection → Selection}
    (h : ∀ o result, Steady (bind o result)) :
    Steady fun s => s.withSignature f fun o result => bind o result s := by
  intro s current more notices
  have hsignature : (s.recount current more notices).signature f = s.signature f := rfl
  simp only [withSignature, hsignature]
  split
  · exact ⟨_, rfl⟩
  · exact h _ _ s current more notices

/-- A member is registered for the current class, and leaves it current. -/
theorem registerMember_recount (s : Selection) (f : DeclaredFunction) (more : Nat) (notices : List Notice) :
    (s.registerMember f).current = s.current
      ∧ ∃ notices', (s.recount s.current more notices).registerMember f
        = (s.registerMember f).recount s.current more notices' := by
  have hcurrent : (s.recount s.current more notices).current = s.current := rfl
  have hrequests : (s.recount s.current more notices).requests = s.requests := rfl
  rw [registerMember, registerMember, hcurrent, hrequests]
  split
  · exact ⟨rfl, _, rfl⟩
  · next id hid =>
    split
    · exact ⟨rfl, _, rfl⟩
    · split
      · exact ⟨rfl, _, rfl⟩
      · split
        · exact ⟨rfl, _, rfl⟩
        · refine ⟨?_, steady_withSignature f (steady_addMember id f) s s.current more notices⟩
          rw [withSignature]
          split
          · rfl
          · next o result _ =>
            rw [addMember]
            split
            · rfl
            · simp only
              split
              · rw [(wrapAll_spec _ o result).1.rest]
                rfl
              · rfl

/-! ### Free functions -/

theorem addNames_recount (f : DeclaredFunction) (request : FunctionRequest) (o : Overload) (result : CxxType)
    (index : Nat) (taken : Bool) (names : List String) :
    SteadyAnswer fun s => s.addNames f request o result index taken names := by
  induction names generalizing index taken with
  | nil => exact fun s current more notices => ⟨notices, rfl⟩
  | cons luaName rest ih =>
    intro s current more notices
    have hregistry : (s.recount current more notices).registry = s.registry := rfl
    simp only [addNames, hregistry]
    split
    · next g _ =>
      let functions := s.registry.functions.insert (Scope.qualify request.scope luaName) g
      exact ih (index + 1) true (s.withRegistry { s.registry with functions }) current more notices
    · next reason _ =>
      exact ih (index + 1) taken (s.note (.duplicateFunction f.qualified luaName reason)) current more _

theorem steady_addFunction (f : DeclaredFunction) (request : FunctionRequest) :
    Steady fun s => s.addFunction f request := by
  refine steady_withSignature f fun o result s current more notices => ?_
  obtain ⟨middle, hmiddle⟩ := addNames_recount f request o result 0 false request.names s current more notices
  simp only at hmiddle ⊢
  rw [hmiddle]
  cases s.addNames f request o result 0 false request.names with
  | mk t taken =>
    cases taken with
    | true =>
      obtain ⟨last, hlast⟩ := steady_wrapAll o result t current more middle
      exact ⟨last, congrArg (fun u : Selection => u.bindIn request.state) hlast⟩
    | false => exact ⟨middle, rfl⟩

/-- A free function does the same whatever class is current. -/
theorem steady_registerFunction (f : DeclaredFunction) : Steady fun s => s.registerFunction f := by
  intro s current more notices
  have hrequests : (s.recount current more notices).requests = s.requests := rfl
  simp only [registerFunction, hrequests]
  split
  · exact ⟨_, rfl⟩
  · split
    · exact ⟨_, rfl⟩
    · split
      · exact ⟨_, rfl⟩
      · split
        · exact steady_addFunction f _ s current more notices
        · split
          · exact steady_addFunction f _ s current more notices
          · exact ⟨_, rfl⟩

/-! ### Classes and enums -/

/-- An enum does the same whatever class is current. -/
theorem steady_registerEnum (e : DeclaredEnum) : Steady fun s => s.registerEnum e := by
  intro s current more notices
  have htarget : (s.recount current more notices).enumTarget? e = s.enumTarget? e := rfl
  have hregistry : (s.recount current more notices).registry = s.registry := rfl
  simp only [registerEnum, htarget, hregistry]
  split
  · exact ⟨_, rfl⟩
  · split <;> exact ⟨_, rfl⟩

/-- A class becomes the current one, or none does, whatever class was current. -/
theorem placeClass_recount (s : Selection) (c : DeclaredClass) (current : Option ClassId) (more : Nat)
    (notices : List Notice) :
    ∃ notices', (s.recount current more notices).placeClass c
      = ((s.placeClass c).1.recount (s.placeClass c).1.current more notices', (s.placeClass c).2) := by
  have htarget : ({ s.recount current more notices with current := none } : Selection).classTarget? c
      = ({ s with current := none } : Selection).classTarget? c := rfl
  have hregistry : (s.recount current more notices).registry = s.registry := rfl
  rw [placeClass, placeClass]
  simp only [htarget]
  cases ({ s with current := none } : Selection).classTarget? c with
  | none => exact ⟨_, rfl⟩
  | some target =>
    simp only [hregistry]
    cases s.registry.addClass c.name c.scope c.source target.1 <;> exact ⟨_, rfl⟩

theorem registerClass_recount (s : Selection) (c : DeclaredClass) (current : Option ClassId) (more : Nat)
    (notices : List Notice) :
    ∃ notices', (s.recount current more notices).registerClass c
      = ((s.registerClass c).1.recount (s.registerClass c).1.current more notices', (s.registerClass c).2) := by
  obtain ⟨placed, hplaced⟩ := placeClass_recount s c current more notices
  rw [registerClass, registerClass, hplaced]
  cases s.placeClass c with
  | mk t id =>
    cases id with
    | none => exact ⟨placed, rfl⟩
    | some id =>
      have hregistry : (t.recount t.current more placed).registry = t.registry := rfl
      simp only [hregistry]
      split <;> exact ⟨placed, rfl⟩

/-! ### The second pass -/

/-- A declaration that is no member does the same whatever class was current. -/
theorem register_recount_of_free (s : Selection) {d : Declaration}
    (h : ∀ f, d = .function f → f.owner.isSome = false) (current : Option ClassId) (more : Nat)
    (notices : List Notice) :
    ∃ current' notices', (s.recount current more notices).register d
        = ((s.register d).1.recount current' more notices', (s.register d).2)
      ∧ (∀ c, d = .record c → current' = (s.register d).1.current)
      ∧ ((∀ c, d ≠ .record c) → current' = current ∧ (s.register d).1.current = s.current) := by
  cases d with
  | remark => exact ⟨current, notices, rfl, (fun _ h => by cases h), fun _ => ⟨rfl, rfl⟩⟩
  | record c =>
    obtain ⟨notices', heq⟩ := registerClass_recount s c current more notices
    exact ⟨_, notices', heq, fun _ _ => rfl, fun hrecord => absurd rfl (hrecord c)⟩
  | function f =>
    obtain ⟨notices', heq⟩ := steady_registerFunction f s current more notices
    obtain ⟨functions, signatures, redirectors, metamethods, states, skipped, others, hrest⟩ := registerFunction_rest s f
    refine ⟨current, notices', ?_, (fun _ h => by cases h), fun _ => ⟨rfl, ?_⟩⟩
    · simp only [register, h f rfl]
      exact congrArg (·, none) heq
    · simp only [register, h f rfl]
      change (s.registerFunction f).current = s.current
      rw [hrest]
  | enum e =>
    obtain ⟨notices', heq⟩ := steady_registerEnum e s current more notices
    refine ⟨current, notices', congrArg (·, none) heq, (fun _ h => by cases h), fun _ => ⟨rfl, ?_⟩⟩
    change (s.registerEnum e).current = s.current
    rw [registerEnum]
    split
    · rfl
    · split <;> rfl

/-- Every declaration does the same where the same class is current. -/
theorem register_recount (s : Selection) (d : Declaration) (more : Nat) (notices : List Notice) :
    ∃ notices', (s.recount s.current more notices).register d
      = ((s.register d).1.recount (s.register d).1.current more notices', (s.register d).2) := by
  by_cases hmember : ∃ f, d = .function f ∧ f.owner.isSome = true
  · obtain ⟨f, rfl, howner⟩ := hmember
    obtain ⟨hcurrent, notices', heq⟩ := registerMember_recount s f more notices
    refine ⟨notices', ?_⟩
    simp only [register, howner, if_true, heq, hcurrent]
  · have hfree : ∀ f, d = .function f → f.owner.isSome = false := fun f hf =>
      Bool.eq_false_iff.2 fun howner => hmember ⟨f, hf, howner⟩
    obtain ⟨current', notices', heq, hrecord, hother⟩ := register_recount_of_free s hfree s.current more notices
    refine ⟨notices', ?_⟩
    have hcurrent : current' = (s.register d).1.current := by
      by_cases h : ∃ c, d = .record c
      · obtain ⟨c, hc⟩ := h
        exact hrecord c hc
      · obtain ⟨hkept, hsame⟩ := hother fun c hc => h ⟨c, hc⟩
        rw [hkept, hsame]
    rw [heq, hcurrent]

/-- From the same class on, all declarations do the same. -/
theorem registerAll_recount (s : Selection) (stream : List (Except DeclarationError Declaration)) (more : Nat)
    (notices : List Notice) :
    ∃ notices', (s.recount s.current more notices).registerAll stream
      = ((s.registerAll stream).1.recount (s.registerAll stream).1.current more notices',
        (s.registerAll stream).2) := by
  induction stream generalizing s notices with
  | nil => exact ⟨notices, rfl⟩
  | cons item rest ih =>
    cases item with
    | error e => exact ⟨notices, rfl⟩
    | ok d =>
      obtain ⟨middle, hfirst⟩ := register_recount s d more notices
      rw [registerAll, registerAll, hfirst]
      cases s.register d with
      | mk t cause =>
        cases cause with
        | none => exact ih t middle
        | some cause => exact ⟨middle, rfl⟩

/-! ### The end -/

theorem addRequestedBase_recount (derived base : String) :
    SteadyAnswer fun s => s.addRequestedBase derived base := by
  intro s current more notices
  have hregistry : (s.recount current more notices).registry = s.registry := rfl
  simp only [addRequestedBase, hregistry]
  split <;> exact ⟨_, rfl⟩

theorem addRequestedBases_recount (bases : List (String × String)) :
    SteadyAnswer fun s => s.addRequestedBases bases := by
  induction bases with
  | nil => exact fun s current more notices => ⟨notices, rfl⟩
  | cons edge rest ih =>
    intro s current more notices
    obtain ⟨derived, base⟩ := edge
    obtain ⟨middle, hmiddle⟩ := addRequestedBase_recount derived base s current more notices
    simp only at hmiddle
    simp only [addRequestedBases, hmiddle]
    cases s.addRequestedBase derived base with
    | mk t abort =>
      cases abort with
      | none => exact ih t current more middle
      | some abort => exact ⟨middle, rfl⟩

theorem steady_attachRedirector (p : Pending RedirectorRequest) : Steady fun s => s.attachRedirector p := by
  intro s current more notices
  have hclass : (s.recount current more notices).exposedClass? p.request.className
      = s.exposedClass? p.request.className := rfl
  simp only [attachRedirector, hclass]
  split <;> exact ⟨_, rfl⟩

theorem steady_attachMetamethod (p : Pending MetamethodRequest) : Steady fun s => s.attachMetamethod p := by
  intro s current more notices
  have hclass : (s.recount current more notices).exposedClass? p.request.className
      = s.exposedClass? p.request.className := rfl
  simp only [attachMetamethod, hclass]
  split
  · exact ⟨_, rfl⟩
  · split
    · exact ⟨_, rfl⟩
    · split <;> exact ⟨_, rfl⟩

/-- The state without what a survey has found to be unresolved. -/
def strike (found : Survey) (s : Selection) : Selection :=
  { s with
    registry := prune s.registry found
    notices := s.notices ++ found.notices
    skipped := s.skipped + (found.functions.length + (found.members.flatMap fun (_, _, keys) => keys).length) }

/-- The state with more headers that every state file includes. -/
def includeAll (headers : List String) (s : Selection) : Selection :=
  s.withRegistry { s.registry with headers := s.registry.headers.insertAll headers }

theorem dropUnresolved_eq (s : Selection) :
    s.dropUnresolved = includeAll ((survey s.registry).met.headers.toList.filter fun header => !header.isEmpty)
      ((survey s.registry).met.forwardClasses.foldl addForward (strike (survey s.registry) s)) := rfl

theorem steady_strike (found : Survey) : Steady (strike found) := by
  intro s current more notices
  refine ⟨notices ++ found.notices, ?_⟩
  simp only [strike, recount, Nat.add_assoc]

/-- What is dropped is found in the registry alone. -/
theorem steady_dropUnresolved : Steady dropUnresolved := by
  intro s current more notices
  have hforward : ∀ name, Steady fun s => s.addForward name := fun name s current more notices => ⟨_, rfl⟩
  have hinclude : ∀ headers, Steady (includeAll headers) := fun headers s current more notices => ⟨notices, rfl⟩
  have hregistry : (s.recount current more notices).registry = s.registry := rfl
  rw [dropUnresolved_eq, dropUnresolved_eq, hregistry]
  exact (((steady_strike _).comp (.foldl hforward _)).comp (hinclude _)) s current more notices

theorem finish_recount : SteadyAnswer finish := by
  intro s current more notices
  obtain ⟨based, hbased⟩ := addRequestedBases_recount s.requests.bases s current more notices
  have hrequests : (s.recount current more notices).requests = s.requests := rfl
  simp only [finish, hrequests]
  simp only at hbased
  rw [hbased]
  cases s.addRequestedBases s.requests.bases with
  | mk t abort =>
    cases abort with
    | some abort => exact ⟨based, rfl⟩
    | none =>
      obtain ⟨redirected, hredirected⟩ := Steady.foldl steady_attachRedirector t.redirectors t current more based
      obtain ⟨implemented, himplemented⟩ := Steady.foldl steady_attachMetamethod
        (t.redirectors.foldl attachRedirector t).metamethods (t.redirectors.foldl attachRedirector t) current more
        redirected
      obtain ⟨last, hlast⟩ := steady_dropUnresolved
        ((t.redirectors.foldl attachRedirector t).metamethods.foldl attachMetamethod
          (t.redirectors.foldl attachRedirector t)) current more implemented
      refine ⟨last, ?_⟩
      have hpending : (t.recount current more based).redirectors = t.redirectors := rfl
      simp only at hredirected himplemented
      simp only [hpending]
      rw [hredirected]
      have hpending : ((t.redirectors.foldl attachRedirector t).recount current more redirected).metamethods
        = (t.redirectors.foldl attachRedirector t).metamethods := rfl
      rw [hpending, himplemented, hlast]
      rfl

end LuaGlue.Selection
