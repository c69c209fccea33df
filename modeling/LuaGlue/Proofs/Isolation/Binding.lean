import LuaGlue.Proofs.Isolation.Settling
import LuaGlue.Proofs.Selection.Runs

/-!
What binding one declaration does.

A function is bound at its `places`: the keys of a request, or a name in the current class. A run that binds
it is beside the run that does not, with these places hidden (`skips_or_beside`). What it registers on the
way are its function types, its state, and what the survey will note on its behalf; `isQuiet` asks that the
function types are recorded already and that there is nothing to note.
-/

namespace LuaGlue

open Selection

/-- Is every function type in the type recorded, as far as its wrapper has a name? -/
def Registry.hasRecorded (r : Registry) (t : CxxType) : Bool :=
  t.signatures.all fun s =>
    match s.wrapperName with
    | .ok key => r.signatures.contains key
    | .error _ => true

namespace Selection

/-! ### Where a declaration is bound -/

/-- The class that a member is added to, if it is read. -/
def memberOf? (s : Selection) (f : DeclaredFunction) : Option ClassId :=
  s.current.filter fun _ => !((f.isConstructor && f.params.isEmpty) || isOperatorName f.name
    || s.requests.isRedirected f.scope f.name)

/-- The request that a free function is bound by, unless it is a native wrapper. -/
def requestFor? (s : Selection) (f : DeclaredFunction) : Option FunctionRequest :=
  if (s.requests.metamethods.get? f.qualified).isSome || (s.requests.redirectors.get? f.qualified).isSome
    || (s.requests.customFunctions.get? f.qualified).isSome then none
  else (s.requests.functions.get? f.qualified).or (inlineRequest? f)

/-- The places that a function is bound at. -/
def places (s : Selection) (f : DeclaredFunction) : List Place :=
  if f.owner.isSome then (s.memberOf? f).toList.map fun id => .member id (kindOf f) f.name
  else (s.requestFor? f).toList.flatMap fun request =>
    request.names.map fun luaName => .free (Scope.qualify request.scope luaName)

/-- The state that a free function is bound in. -/
def stateOf? (s : Selection) (f : DeclaredFunction) : Option String :=
  if f.owner.isSome then none else (s.requestFor? f).map (·.state)

/-- Does binding the function register nothing but the function? -/
def isQuiet (s : Selection) (f : DeclaredFunction) : Bool :=
  match s.signature f with
  | .error _ => true
  | .ok (o, result) => (o.map Param.type ++ [result]).all fun t => t.isTraceless && s.registry.hasRecorded t

/-- Is the function skipped, because one of its types cannot be read? -/
def Skips (s : Selection) (f : DeclaredFunction) : Prop :=
  ∃ param reason, s.register (.function f) = (s.skip (.skippedFunction f.qualified param reason), none)

theorem registerMember_of_memberOf? {s : Selection} {f : DeclaredFunction} {id : ClassId}
    (h : s.memberOf? f = some id) : s.registerMember f = s.withSignature f (s.addMember id f) := by
  obtain ⟨hcurrent, hread⟩ := Option.filter_eq_some_iff.1 h
  simp only [Bool.not_eq_true', Bool.or_eq_false_iff] at hread
  rw [registerMember, hcurrent]
  simp only [hread]
  rfl

theorem registerFunction_of_requestFor? {s : Selection} {f : DeclaredFunction} {request : FunctionRequest}
    (h : s.requestFor? f = some request) : s.registerFunction f = s.addFunction f request := by
  unfold requestFor? at h
  split at h
  · cases h
  · next hnative =>
    simp only [Bool.not_eq_true, Bool.or_eq_false_iff, Option.isSome_eq_false_iff,
      Option.isNone_iff_eq_none] at hnative
    unfold registerFunction
    simp only [hnative]
    cases hrequested : s.requests.functions.get? f.qualified with
    | some found =>
      rw [hrequested, Option.some_or] at h
      cases h
      rfl
    | none =>
      rw [hrequested, Option.none_or] at h
      simp only [h]

/-! ### Binding it -/

section Binding

variable {hidden : List Place} {state : Option String} {quiet : Prop} {s t t' : Selection}

/-- A run beside itself. -/
theorem Beside.refl (hidden : List Place) (quiet : Prop) (s : Selection) : Beside hidden none quiet s s :=
  ⟨rfl, fun _ _ => rfl, rfl, fun _ hvacant => ⟨rfl, fun p hp f hf => (by rw [hvacant p hp] at hf; cases hf),
    fun _ => by simp⟩⟩

/-- A hidden place that one run fills with functions that leave no trace. -/
theorem Beside.fill_hidden (h : Beside hidden state quiet t s) {p : Place} (hp : p ∈ hidden)
    {u : Option BoundFunction → Option BoundFunction}
    (hu : quiet → ∀ old, (∀ f, old = some f → f.IsTraceless) → ∀ f, u old = some f → f.IsTraceless) :
    Beside hidden state quiet (t.withRegistry (t.registry.fill p u)) s := by
  refine ⟨?_, fun q hq => ?_, h.plan, fun hquiet hvacant => ?_⟩
  · exact (Registry.frame_fill t.registry p u).trans h.frame
  · have hne : q ≠ p := fun heq => hq (heq ▸ hp)
    exact (Registry.bound?_fill_of_ne t.registry hne u).trans (h.bound q hq)
  · obtain ⟨hsignatures, htraceless, hstates⟩ := h.silent hquiet hvacant
    refine ⟨(Registry.signatures_fill t.registry p u).trans hsignatures, fun q hq f hf => ?_, hstates⟩
    change (t.registry.fill p u).bound? q = some f at hf
    by_cases hqp : q = p
    · subst hqp
      unfold Registry.fill at hf
      split at hf
      · next g hg =>
        have hnew := hu hquiet _ (fun f hf => htraceless q hq f hf) g hg
        cases hhosts : t.registry.hosts q with
        | true =>
          rw [Registry.bound?_put_self _ hhosts] at hf
          cases hf
          exact hnew
        | false =>
          rw [Registry.bound?_of_not_hosts
            ((Registry.hosts_of_frame_eq (Registry.frame_put _ _ _) q).trans hhosts)] at hf
          cases hf
      · exact htraceless q hq f hf
    · rw [Registry.bound?_fill_of_ne _ hqp] at hf
      exact htraceless q hq f hf

/-- One more overload of types that leave no trace. -/
theorem isTraceless_of_extendWith {fresh : BoundFunction} {o : Overload} (hfresh : fresh.IsTraceless)
    (ho : ∀ p ∈ o, p.type.isTraceless = true) (old : Option BoundFunction)
    (hold : ∀ f, old = some f → f.IsTraceless) (f : BoundFunction) (hf : extendWith fresh o old = some f) :
    f.IsTraceless := by
  have hbefore : (old.getD fresh).IsTraceless := by
    cases old with
    | none => exact hfresh
    | some g => exact hold g rfl
  unfold extendWith at hf
  cases hadd : (old.getD fresh).addOverload o with
  | error reason =>
    rw [hadd] at hf
    cases hf
  | ok g =>
    rw [hadd] at hf
    cases hf
    rw [BoundFunction.addOverload_eq_ok hadd]
    refine ⟨fun t ht => ?_, hbefore.2⟩
    rw [BoundFunction.paramTypes, List.flatMap_append, List.mem_append] at ht
    rcases ht with hearlier | hnew
    · exact hbefore.1 t hearlier
    · rw [List.flatMap_singleton] at hnew
      obtain ⟨p, hp, rfl⟩ := List.mem_map.1 hnew
      exact ho p hp

theorem addSignatures_of_recorded (r : Registry) {l : List Signature}
    (h : ∀ s ∈ l, ∀ key, s.wrapperName = .ok key → r.signatures.contains key = true) : (r.addSignatures l).1 = r := by
  induction l with
  | nil => rfl
  | cons s rest ih =>
    rw [Registry.addSignatures]
    split
    · next key hname =>
      rw [Registry.addSignature, if_pos (h s List.mem_cons_self key hname)]
      exact ih fun other hother => h other (List.mem_cons_of_mem _ hother)
    · rfl

/-- Function types that are recorded already are not recorded again. -/
theorem signatures_wrapAll_of_recorded (s : Selection) {o : Overload} {result : CxxType}
    (h : ∀ t ∈ o.map Param.type ++ [result], s.registry.hasRecorded t = true) :
    (s.wrapAll o result).registry.signatures = s.registry.signatures := by
  rw [wrapAll]
  generalize o.map Param.type ++ [result] = ts at h
  induction ts generalizing s with
  | nil => rfl
  | cons t rest ih =>
    have hsame : (s.wrapSignatures t).registry = s.registry := by
      have hrecorded := addSignatures_of_recorded s.registry (l := t.signatures) fun sig hsig key hkey => by
        have hfound := List.all_eq_true.1 (h t List.mem_cons_self) sig hsig
        rw [hkey] at hfound
        exact hfound
      rw [wrapSignatures, Registry.registerSignatures]
      split <;>
      · next heq =>
        rw [heq] at hrecorded
        exact hrecorded
    rw [List.foldl_cons, ih (s.wrapSignatures t), hsame]
    rw [hsame]
    exact fun other hother => h other (List.mem_cons_of_mem _ hother)

/-- The types of a function that is read, if it is quiet. -/
theorem isQuiet_iff {f : DeclaredFunction} {o : Overload} {result : CxxType}
    (h : s.signature f = .ok (o, result)) : s.isQuiet f = true
      ↔ ∀ t ∈ o.map Param.type ++ [result], t.isTraceless = true ∧ s.registry.hasRecorded t = true := by
  rw [isQuiet, h]
  simp only [List.all_eq_true, Bool.and_eq_true]

theorem hasRecorded_of_signatures_eq {r r' : Registry} (h : r.signatures = r'.signatures) (t : CxxType) :
    r.hasRecorded t = r'.hasRecorded t := by
  rw [Registry.hasRecorded, Registry.hasRecorded, h]

/-- The run that records function types that are recorded already. -/
theorem Beside.wrapAll_recorded (h : Beside hidden state quiet t s) {o : Overload} {result : CxxType}
    (hrecording : Recording t t')
    (hsignatures : t'.registry.signatures = t.registry.signatures
      ∨ t'.registry.signatures = (t.wrapAll o result).registry.signatures)
    (hrecorded : quiet → ∀ type ∈ o.map Param.type ++ [result], s.registry.hasRecorded type = true) :
    Beside hidden state quiet t' s := by
  refine h.recording hrecording (.refl s) fun hquiet _ hsame => ?_
  rcases hsignatures with hkept | hwrapped
  · rw [hkept, hsame]
  · rw [hwrapped, signatures_wrapAll_of_recorded t fun type htype => ?_, hsame]
    rw [hasRecorded_of_signatures_eq hsame]
    exact hrecorded hquiet type htype

/-- A run that binds a member, beside the one that does not. -/
theorem beside_addMember (s : Selection) {f : DeclaredFunction} {o : Overload} {result : CxxType}
    (hsignature : s.signature f = .ok (o, result)) (id : ClassId) :
    Beside [.member id (kindOf f) f.name] none (s.isQuiet f = true) (s.addMember id f o result) s := by
  cases hc : s.registry.class? id with
  | none =>
    rw [addMember, hc]
    exact .refl _ _ s
  | some c =>
    obtain ⟨hrecording, hsignatures⟩ := addMember_spec s hc f o result
    have hfilled := (Beside.refl [.member id (kindOf f) f.name] (s.isQuiet f = true) s).fill_hidden
      List.mem_cons_self (u := extendWith (newMember c f result) o) fun hquiet => by
        have htypes := (isQuiet_iff hsignature).1 hquiet
        refine isTraceless_of_extendWith ⟨(fun t ht => by cases ht), (htypes result (by simp)).1⟩ fun p hp => ?_
        exact (htypes p.type (by simp [List.mem_map_of_mem hp])).1
    refine hfilled.wrapAll_recorded hrecording ?_ fun hquiet type htype =>
      ((isQuiet_iff hsignature).1 hquiet type htype).2
    rw [hsignatures]
    split
    · exact .inr rfl
    · exact .inl (Registry.signatures_fill _ _ _).symm

/-- A run that binds a free function under some names, beside the one that does not. -/
theorem Beside.addNames_hidden {f : DeclaredFunction} (h : Beside hidden none (s.isQuiet f = true) t s)
    {o : Overload} {result : CxxType} (hsignature : s.signature f = .ok (o, result)) (request : FunctionRequest)
    (index : Nat) (taken : Bool) {names : List String}
    (hnames : ∀ luaName ∈ names, Place.free (Scope.qualify request.scope luaName) ∈ hidden) :
    Beside hidden none (s.isQuiet f = true) (t.addNames f request o result index taken names).1 s := by
  induction names generalizing t index taken with
  | nil => exact h
  | cons luaName rest ih =>
    obtain ⟨notices, heq⟩ := addNames_cons t f request o result index taken luaName rest
    have hfilled := h.fill_hidden (hnames luaName List.mem_cons_self)
      (u := extendWith (newFunction f request index luaName result) o) fun hquiet => by
        have htypes := (isQuiet_iff hsignature).1 hquiet
        refine isTraceless_of_extendWith ⟨(fun t ht => by cases ht), (htypes result (by simp)).1⟩ fun p hp => ?_
        exact (htypes p.type (by simp [List.mem_map_of_mem hp])).1
    have hnext : Beside hidden none (s.isQuiet f = true) { t.withRegistry (t.registry.fill _ _) with notices } s :=
      hfilled.replan rfl rfl rfl rfl hfilled.plan
    rw [heq]
    exact ih hnext (index + 1) _ fun other hother => hnames other (List.mem_cons_of_mem _ hother)

/-- The state that one run binds in. -/
theorem Beside.bindIn_hidden (h : Beside hidden none quiet t s) (name : String) :
    Beside hidden (some name) quiet (t.bindIn name) s := by
  refine ⟨h.frame, h.bound, h.plan, fun hquiet hvacant => ?_⟩
  obtain ⟨hsignatures, htraceless, hstates⟩ := h.silent hquiet hvacant
  refine ⟨hsignatures, htraceless, fun other => ?_⟩
  have hinsert := NameSet.contains_insert t.states name other
  change (t.states.insert name).contains other = true ↔ _
  have hsame : t.states.contains other = true ↔ s.states.contains other = true :=
    (hstates other).trans (or_iff_left nofun)
  rw [hinsert, Bool.or_eq_true, hsame, beq_iff_eq, Option.some.injEq, or_comm, @eq_comm _ other]

/-- A run that binds a free function, beside the one that does not. -/
theorem beside_addFunction (s : Selection) {f : DeclaredFunction} {o : Overload} {result : CxxType}
    (hsignature : s.signature f = .ok (o, result)) {request : FunctionRequest} (hnames : request.names ≠ []) :
    Beside (request.names.map fun luaName => .free (Scope.qualify request.scope luaName)) (some request.state)
      (s.isQuiet f = true) (s.addFunction f request) s := by
  have hhidden : ∀ luaName ∈ request.names, Place.free (Scope.qualify request.scope luaName)
      ∈ request.names.map fun luaName => Place.free (Scope.qualify request.scope luaName) :=
    fun luaName hname => List.mem_map_of_mem hname
  have hbound := (Beside.refl (request.names.map fun luaName => .free (Scope.qualify request.scope luaName))
    (s.isQuiet f = true) s).addNames_hidden hsignature request 0 false hhidden
  have htaken : s.registry.Vacant (request.names.map fun luaName => .free (Scope.qualify request.scope luaName)) →
      (s.addNames f request o result 0 false request.names).2 = true := by
    intro hvacant
    obtain ⟨luaName, rest, hcons⟩ := List.exists_cons_of_ne_nil hnames
    have hnone := hvacant _ (hhidden luaName (hcons ▸ List.mem_cons_self))
    obtain ⟨notices, heq⟩ := addNames_cons s f request o result 0 false luaName rest
    have htakes := Option.isSome_iff_ne_none.2 (extendWith_none rfl o : extendWith (newFunction f request 0 luaName
      result) o none ≠ none)
    rw [hcons, heq, hnone, htakes]
    exact taken_addNames _ f request o result 1 rest
  rw [addFunction, withSignature, hsignature]
  simp only
  cases hadd : s.addNames f request o result 0 false request.names with
  | mk t taken =>
    rw [hadd] at hbound htaken
    cases taken with
    | true =>
      exact (hbound.wrapAll_recorded (wrapAll_spec t o result).1 (.inr rfl) fun hquiet type htype =>
        ((isQuiet_iff hsignature).1 hquiet type htype).2).bindIn_hidden request.state
    | false => exact ⟨hbound.frame, hbound.bound, hbound.plan, fun _ hvacant => by cases htaken hvacant⟩

/-- A function that is skipped leaves nothing but a notice. -/
theorem Skips.beside {f : DeclaredFunction} (h : s.Skips f) :
    Beside [] none True (s.register (.function f)).1 s ∧ (s.register (.function f)).2 = none := by
  obtain ⟨param, reason, heq⟩ := h
  rw [heq]
  exact ⟨(Beside.refl [] True s).replan rfl rfl rfl rfl rfl, rfl⟩

/-- A function that has places is skipped, or bound there. -/
theorem skips_or_beside {f : DeclaredFunction} (h : s.places f ≠ []) :
    s.Skips f ∨ (Beside (s.places f) (s.stateOf? f) (s.isQuiet f = true) (s.register (.function f)).1 s
      ∧ (s.register (.function f)).2 = none) := by
  have hskips : ∀ {reason : String × SkipReason} {bind : Overload → CxxType → Selection},
      s.signature f = .error reason → s.withSignature f bind
        = s.skip (.skippedFunction f.qualified reason.1 reason.2) := by
    intro reason bind herror
    rw [withSignature, herror]
  cases hmember : f.owner.isSome with
  | true =>
    have hregister : s.register (.function f) = (s.registerMember f, none) := by
      rw [register, hmember]
      rfl
    rw [places, hmember, if_pos rfl] at h ⊢
    rw [stateOf?, hmember, if_pos rfl, hregister]
    cases hid : s.memberOf? f with
    | none =>
      rw [hid] at h
      exact absurd rfl h
    | some id =>
      rw [registerMember_of_memberOf? hid]
      cases hsignature : s.signature f with
      | error reason =>
        refine .inl ⟨reason.1, reason.2, ?_⟩
        rw [hregister, registerMember_of_memberOf? hid, hskips hsignature]
      | ok types =>
        refine .inr ⟨?_, rfl⟩
        rw [withSignature, hsignature]
        exact beside_addMember s hsignature id
  | false =>
    have hregister : s.register (.function f) = (s.registerFunction f, none) := by
      rw [register, hmember]
      rfl
    rw [places, hmember, if_neg Bool.false_ne_true] at h ⊢
    rw [stateOf?, hmember, if_neg Bool.false_ne_true, hregister]
    cases hrequest : s.requestFor? f with
    | none =>
      rw [hrequest] at h
      exact absurd rfl h
    | some request =>
      rw [hrequest] at h
      have hnames : request.names ≠ [] := by
        intro hnone
        simp [hnone] at h
      rw [registerFunction_of_requestFor? hrequest]
      cases hsignature : s.signature f with
      | error reason =>
        refine .inl ⟨reason.1, reason.2, ?_⟩
        rw [hregister, registerFunction_of_requestFor? hrequest, addFunction, hskips hsignature]
      | ok types =>
        refine .inr ⟨?_, rfl⟩
        simpa using beside_addFunction s hsignature hnames

end Binding

end Selection

end LuaGlue
