import LuaGlue.Proofs.Attachment.Requested
import LuaGlue.Proofs.Isolation.Duplicate
import LuaGlue.Proofs.Isolation.Widened

/-!
Where the names of a run come from.

A class that is exposed at the end has the name of one that is declared (`announced_of_run`), and a state that anything
is bound in is named by a comment (`statesNamed_of_run`): for the declaration it belongs to, or in a request that the
first pass has read. What native wrappers and bases add to classes brings in no name of either kind.
-/

namespace LuaGlue

open Registry Selection

variable {stream : List (Except DeclarationError Declaration)}

/-! ### Exposed classes -/

namespace Selection

theorem Announced.setMember {s : Selection} (h : Announced stream s.registry) (c : BoundClass) (kind : MemberKind)
    (key : String) (member : BoundFunction) : Announced stream (s.setMember c kind key member).registry :=
  h.modifyClass c.id (sameFace_withMembers kind _).qualified fun d => isExposed_withMembers d kind _

theorem announced_attachRedirector {s : Selection} (h : Announced stream s.registry) (p : Pending RedirectorRequest) :
    Announced stream (s.attachRedirector p).registry := by
  rw [attachRedirector]
  simp only
  split
  · exact h
  · exact h.setMember _ _ _ _

theorem announced_attachMetamethod {s : Selection} (h : Announced stream s.registry)
    (p : Pending MetamethodRequest) : Announced stream (s.attachMetamethod p).registry := by
  rw [attachMetamethod]
  simp only
  split
  · exact h
  · split
    · exact h
    · split
      · exact h.setMember _ _ _ _
      · exact (h.setMember _ _ _ _).unmoved (unmoved_of_classes_eq rfl)

theorem announced_assembled {s : Selection} (h : Announced stream s.registry) :
    Announced stream s.assembled.registry :=
  keeps_assembled (P := fun t => Announced stream t.registry) (fun _ p ht => announced_attachRedirector ht p)
    (fun _ p ht => announced_attachMetamethod ht p) (h.unmoved (unmoved_addRequestedBases s s.requests.bases))

theorem announced_settled {s : Selection} (h : Announced stream s.registry) : Announced stream s.settled := by
  refine keeps_settled (fun hr heq => hr.unmoved (unmoved_of_classes_eq heq)) (fun r name scope hr => ?_)
    (fun r id kind keys hr => ?_) h
  · exact hr.unmoved (unmoved_addThinClass r name scope "")
  · exact hr.modifyClass id (sameFace_withMembers kind _).qualified fun d => isExposed_withMembers d kind _

/-- A class that is exposed at the end of a run is one that is declared. -/
theorem announced_of_run {patches : Patches} {headers : NameSet} {s : Selection}
    (hrun : (start { patches, headers }).runAll stream = (s, none)) : Announced stream s.registry := by
  rw [(passes_of_run hrun).2.2]
  exact announced_settled (announced_assembled (announced_registered patches headers stream stream))

end Selection

/-! ### States that comments name -/

/-- The Lua states that a comment names, for what it belongs to and for what it asks for. -/
def statesNamed (comment : String) : List String :=
  (inlineState? comment).toList ++ (((Annotations.parse comment).get? "LuaStateTypes").bind (·.params[0]?)).toList

/-- The Lua state that a request binds something in. -/
def Request.state? : Request → Option String
  | .record _ request | .enum _ request => some request.state
  | .function _ state _ _ | .customFunction _ state _ _ => some state
  | .metamethod _ _ | .redirector _ _ | .template _ _ | .base _ _ | .unknown _ _ => none

namespace Request

theorem state?_of_late {state other : String} {a : Annotation} {request : Request}
    (h : late state a = .ok request) (hstate : request.state? = some other) : other = state := by
  obtain ⟨target, -, h⟩ := bind_eq_ok.1 h
  obtain ⟨kind, -, h⟩ := bind_eq_ok.1 h
  split at h
  · cases h
    exact (Option.some.inj hstate).symm
  · cases h
    exact (Option.some.inj hstate).symm
  · cases h
    exact (Option.some.inj hstate).symm
  · obtain ⟨wrapper, -, h⟩ := bind_eq_ok.1 h
    cases h
    exact (Option.some.inj hstate).symm
  · cases h
    cases hstate

theorem state?_of_addMetamethod {a : Annotation} {request : Request} (h : addMetamethod a = .ok request) :
    request.state? = none := by
  obtain ⟨wrapper, -, h⟩ := bind_eq_ok.1 h
  obtain ⟨className, -, h⟩ := bind_eq_ok.1 h
  obtain ⟨metamethod, -, h⟩ := bind_eq_ok.1 h
  cases h
  rfl

theorem state?_of_redirect {isStatic : Bool} {a : Annotation} {request : Request}
    (h : redirect isStatic a = .ok request) : request.state? = none := by
  obtain ⟨wrapper, -, h⟩ := bind_eq_ok.1 h
  obtain ⟨className, -, h⟩ := bind_eq_ok.1 h
  obtain ⟨function, -, h⟩ := bind_eq_ok.1 h
  cases h
  rfl

/-- Only a late request binds anything in a state, and this is the state that its comment names. -/
theorem state?_of_read? {d : Declaration} {request : Request} (h : read? (.ok d) = some request) {state : String}
    (hstate : request.state? = some state) : state ∈ statesNamed d.comment := by
  have hof := Annotations.of_read? h
  rw [Request.of] at hof
  split at hof
  · cases hof
  next stateTypes hnamed =>
  obtain ⟨named, hparam, hof⟩ := bind_eq_ok.1 hof
  have hmem : named ∈ statesNamed d.comment := by
    refine List.mem_append_right _ (Option.mem_toList.2 ?_)
    rw [hnamed]
    exact Annotation.getElem?_of_param hparam
  split at hof
  · obtain ⟨found, hlate, heq⟩ := map_eq_ok.1 hof
    cases heq
    rwa [state?_of_late hlate hstate]
  split at hof
  · obtain ⟨found, hadd, heq⟩ := map_eq_ok.1 hof
    cases heq
    cases (state?_of_addMetamethod hadd).symm.trans hstate
  split at hof
  · obtain ⟨source, -, hof⟩ := bind_eq_ok.1 hof
    obtain ⟨target, -, hof⟩ := bind_eq_ok.1 hof
    cases hof
    cases hstate
  split at hof
  · obtain ⟨derived, -, hof⟩ := bind_eq_ok.1 hof
    obtain ⟨base, -, hof⟩ := bind_eq_ok.1 hof
    cases hof
    cases hstate
  split at hof
  · obtain ⟨found, hredirect, heq⟩ := map_eq_ok.1 hof
    cases heq
    cases (state?_of_redirect hredirect).symm.trans hstate
  · cases hof

end Request

/-! ### States of requests -/

variable {P : String → Prop}

/-- Are all states that something is requested in of this kind? -/
structure Requests.BindIn (P : String → Prop) (rs : Requests) : Prop where
  classes : ∀ request ∈ rs.classes.values, P request.state
  functions : ∀ request ∈ rs.functions.values, P request.state
  customFunctions : ∀ request ∈ rs.customFunctions.values, P request.state
  enums : ∀ request ∈ rs.enums.values, P request.state

/-- One more name for a function leaves the state of the first. -/
theorem Requests.bindIn_alter {m : NameMap FunctionRequest} (h : ∀ request ∈ m.values, P request.state) {state : String}
    (hstate : P state) (target scope luaName : String) :
    ∀ request ∈ (m.alter target (addName state scope luaName)).values, P request.state := by
  intro request hrequest
  rcases NameMap.mem_values_insert hrequest with rfl | hold
  · cases hget : m.get? target with
    | none => exact hstate
    | some first => exact h first (NameMap.mem_values_of_get? hget)
  · exact h request hold

theorem Requests.bindIn_insert {m : NameMap TypeRequest} (h : ∀ request ∈ m.values, P request.state)
    {new : TypeRequest} (hstate : P new.state) (target : String) :
    ∀ request ∈ (m.insert target new).values, P request.state := by
  intro request hrequest
  rcases NameMap.mem_values_insert hrequest with rfl | hold
  · exact hstate
  · exact h request hold

theorem Requests.BindIn.add {rs : Requests} (h : rs.BindIn P) {request : Request}
    (hstate : ∀ state, request.state? = some state → P state) : (rs.add request).BindIn P := by
  cases request with
  | record target request => exact { h with classes := bindIn_insert h.classes (hstate _ rfl) target }
  | enum target request => exact { h with enums := bindIn_insert h.enums (hstate _ rfl) target }
  | function target state scope luaName =>
    exact { h with functions := bindIn_alter h.functions (hstate _ rfl) target scope luaName }
  | customFunction wrapper state scope luaName =>
    exact { h with customFunctions := bindIn_alter h.customFunctions (hstate _ rfl) wrapper scope luaName }
  | metamethod | redirector | template | base | unknown => exact { h with }

/-- What the first pass has read binds in states that comments name. -/
theorem Selection.bindIn_learnAll {registry : Registry} (hends : ((start registry).learnAll stream).2 = none)
    (hnamed : ∀ d, .ok d ∈ stream → ∀ state ∈ statesNamed d.comment, P state) :
    ((start registry).learnAll stream).1.requests.BindIn P := by
  rw [requests_learnAll _ hends]
  refine List.foldlRecOn (motive := fun rs : Requests => rs.BindIn P) _ _ ⟨nofun, nofun, nofun, nofun⟩
    fun rs hrs request hrequest => hrs.add fun state hstate => ?_
  obtain ⟨item, hitem, hread⟩ := List.mem_filterMap.1 hrequest
  cases item with
  | error e => cases hread
  | ok d => exact hnamed d hitem state (Request.state?_of_read? hread hstate)

/-! ### States of a run -/

namespace Selection

variable {s : Selection}

/-- Are all states that something is bound in of this kind? -/
def BoundIn (P : String → Prop) (s : Selection) : Prop := ∀ state, s.states.contains state = true → P state

theorem BoundIn.bindIn (h : s.BoundIn P) {state : String} (hstate : P state) : (s.bindIn state).BoundIn P := by
  intro other hother
  rw [Selection.bindIn, NameSet.contains_insert, Bool.or_eq_true] at hother
  rcases hother with heq | hold
  · rwa [of_decide_eq_true heq]
  · exact h other hold

theorem state_of_classTarget? (hrequests : s.requests.BindIn P) {c : DeclaredClass}
    (hinline : ∀ state, inlineState? c.comment = some state → P state) {target : String × Option String}
    (htarget : s.classTarget? c = some target) : P target.1 := by
  rw [classTarget?] at htarget
  split at htarget
  · next request hrequest =>
    cases htarget
    exact hrequests.classes request (NameMap.mem_values_of_get? hrequest)
  · obtain ⟨state, hstate, rfl⟩ := Option.map_eq_some_iff.1 htarget
    exact hinline state hstate

theorem boundIn_registerClass (h : s.BoundIn P) (hrequests : s.requests.BindIn P) {c : DeclaredClass}
    (hinline : ∀ state, inlineState? c.comment = some state → P state) : (s.registerClass c).1.BoundIn P := by
  have hplaced : (s.placeClass c).1.BoundIn P := by
    rw [placeClass]
    simp only
    split
    · exact h
    · next state luaScope htarget =>
      split
      · exact h
      · next registry id _ =>
        have hstate : P state :=
          state_of_classTarget? (s := { s with current := none }) hrequests hinline htarget
        exact BoundIn.bindIn (s := ((({ s with current := none } : Selection).withRegistry registry).modifyClass id _).note _)
          h hstate
  rw [registerClass]
  split
  · next t heq =>
    rw [heq] at hplaced
    exact hplaced
  · next t id heq =>
    rw [heq] at hplaced
    split <;> exact hplaced

/-- A member binds nothing in a state of its own. -/
theorem states_registerMember (s : Selection) (f : DeclaredFunction) : (s.registerMember f).states = s.states := by
  rw [registerMember]
  split
  · rfl
  · split
    · rfl
    · split
      · rfl
      · split
        · rfl
        · rw [withSignature]
          split
          · rfl
          · next o result _ =>
            rw [addMember]
            split
            · rfl
            · simp only
              split
              · rw [(wrapAll_spec _ o result).1.rest]
                rfl
              · rfl

theorem boundIn_addFunction (h : s.BoundIn P) (f : DeclaredFunction) {request : FunctionRequest}
    (hstate : P request.state) : (s.addFunction f request).BoundIn P := by
  rw [addFunction, withSignature]
  split
  · exact h
  · next o result _ =>
    obtain ⟨functions, notices, hnames⟩ := addNames_rest s f request o result 0 false request.names
    have hbound : (s.addNames f request o result 0 false request.names).1.BoundIn P := by
      rw [hnames]
      exact h
    split
    · next t heq =>
      rw [heq] at hbound
      refine BoundIn.bindIn ?_ hstate
      rw [(wrapAll_spec t o result).1.rest]
      exact hbound
    · next t heq =>
      rw [heq] at hbound
      exact hbound

theorem boundIn_registerFunction (h : s.BoundIn P) (hrequests : s.requests.BindIn P) {f : DeclaredFunction}
    (hinline : ∀ state, inlineState? f.comment = some state → P state) : (s.registerFunction f).BoundIn P := by
  unfold registerFunction
  simp only
  split
  · exact h
  split
  · exact h
  split
  · next request hrequest =>
    exact BoundIn.bindIn (s := s.withRegistry _) h
      (hrequests.customFunctions request (NameMap.mem_values_of_get? hrequest))
  split
  · next request hrequest =>
    exact boundIn_addFunction h f (hrequests.functions request (NameMap.mem_values_of_get? hrequest))
  split
  · next request hrequest =>
    obtain ⟨state, hstate, rfl⟩ := Option.map_eq_some_iff.1 hrequest
    exact boundIn_addFunction h f (hinline state hstate)
  · exact h

theorem boundIn_registerEnum (h : s.BoundIn P) (hrequests : s.requests.BindIn P) {e : DeclaredEnum}
    (hinline : ∀ state, inlineState? e.comment = some state → P state) : (s.registerEnum e).BoundIn P := by
  rw [registerEnum]
  split
  · exact h
  · next state scope htarget =>
    have hstate : P state := by
      rw [enumTarget?] at htarget
      split at htarget
      · next request hrequest =>
        cases htarget
        exact hrequests.enums request (NameMap.mem_values_of_get? hrequest)
      · obtain ⟨found, hfound, heq⟩ := Option.map_eq_some_iff.1 htarget
        cases heq
        exact hinline _ hfound
    split
    · exact BoundIn.bindIn (s := s.withRegistry _) h hstate
    · exact h

theorem boundIn_register (h : s.BoundIn P) (hrequests : s.requests.BindIn P) {d : Declaration}
    (hinline : ∀ state, inlineState? d.comment = some state → P state) : (s.register d).1.BoundIn P := by
  cases d with
  | remark => exact h
  | record c => exact boundIn_registerClass h hrequests hinline
  | function f =>
    rw [register]
    simp only
    split
    · intro state hstate
      rw [states_registerMember] at hstate
      exact h state hstate
    · exact boundIn_registerFunction h hrequests hinline
  | enum e => exact boundIn_registerEnum h hrequests hinline

theorem boundIn_registerAll (h : s.BoundIn P) (hrequests : s.requests.BindIn P)
    {part : List (Except DeclarationError Declaration)}
    (hnamed : ∀ d, .ok d ∈ part → ∀ state ∈ statesNamed d.comment, P state) : (s.registerAll part).1.BoundIn P := by
  induction part generalizing s with
  | nil => exact h
  | cons item rest ih =>
    cases item with
    | error e => exact h
    | ok d =>
      have hfirst := boundIn_register h hrequests fun state hstate =>
        hnamed d List.mem_cons_self state (List.mem_append_left _ (Option.mem_toList.2 hstate))
      have hlearned := (learned_register s d).requests
      rw [registerAll]
      split
      · next heq =>
        rw [heq] at hfirst hlearned
        exact ih hfirst (hlearned ▸ hrequests) fun other hother => hnamed other (List.mem_cons_of_mem _ hother)
      · next heq =>
        rw [heq] at hfirst
        exact hfirst

/-- Bases and native wrappers bind nothing in a state. -/
theorem states_assembled (s : Selection) : s.assembled.states = s.states := by
  have hbases : (s.addRequestedBases s.requests.bases).1.states = s.states := by
    refine addRequestedBases_induction (P := fun t => t.states = s.states) (fun t derived base h => ?_) rfl _
    rw [addRequestedBase]
    simp only
    split <;> exact h
  refine keeps_assembled (P := fun t => t.states = s.states) (fun t p ht => ?_) (fun t p ht => ?_) hbases
  · rw [attachRedirector]
    simp only
    split <;> exact ht
  · rw [attachMetamethod]
    simp only
    split
    · exact ht
    · split
      · exact ht
      · split <;> exact ht

/-- The states at the end are those that were there and those that something was bound in. -/
theorem contains_states_settled (s : Selection) (state : String) : s.settled.states.contains state = true
    ↔ s.registry.states.contains state = true ∨ s.states.contains state = true := by
  have hpruned : (prune s.registry (survey s.registry)).states = s.registry.states :=
    keeps_prune (P := fun r => r.states = s.registry.states) (fun _ _ _ _ h => h) s.registry _ rfl
  rw [settled_eq_settle, settle_eq, NameSet.contains_insertAll, onlyClasses_addThinClasses, hpruned, or_comm,
    NameSet.mem_toList]

theorem states_of_onlyClasses {r r' : Registry} (h : OnlyClasses r r') : r'.states = r.states := by
  rw [show r' = { r with classes := r'.classes } from h]

/-- Registrations bind nothing in a state. -/
theorem states_change {r r' : Registry} (h : Change r r') : r'.states = r.states := by
  cases h with
  | wrap hname => rw [(recording_addSignature r hname).rest]
  | expose hadd => exact states_of_onlyClasses (onlyClasses_addClass hadd)
  | addThin name scope source => exact states_of_onlyClasses (onlyClasses_addThinClass r name scope source)
  | derive _ hadd =>
    obtain ⟨-, rfl⟩ := addBase_ok hadd
    rfl
  | nest scope id => exact states_of_onlyClasses (onlyClasses_nestClass r scope id)
  | enter hadd =>
    obtain ⟨-, rfl⟩ := addEnum_ok hadd
    rfl
  | mapTemplate | describe | makeDefault | extendMember | extendFunction | bindWrapper | redirect | implement
  | includeHeader => rfl

/-- A state that anything is bound in is one that a comment names. -/
theorem statesNamed_of_run {patches : Patches} {headers : NameSet} {s : Selection}
    (hrun : (start { patches, headers }).runAll stream = (s, none)) {state : String}
    (hstate : s.registry.states.contains state = true) :
    ∃ d, .ok d ∈ stream ∧ state ∈ statesNamed d.comment := by
  obtain ⟨hlearn, -, hsettled⟩ := passes_of_run hrun
  have hnone : ((start { patches, headers }).complete stream).registry.states = ∅ :=
    (changes_complete patches headers stream).keeps (P := fun r => r.states = ∅) (fun h hr => (states_change h).trans hr)
      rfl
  have hnamed : ∀ d, .ok d ∈ stream → ∀ state ∈ statesNamed d.comment,
      ∃ d, .ok d ∈ stream ∧ state ∈ statesNamed d.comment := fun d hd state hmem => ⟨d, hd, hmem⟩
  have hstates : ((start { patches, headers }).learnAll stream).1.states = ∅ := by
    obtain ⟨templates, known, requests, notices, heq⟩ := learnAll_rest (start { patches, headers }) stream
    rw [heq]
    rfl
  have hbound := boundIn_registerAll (s := ((start { patches, headers }).learnAll stream).1)
    (P := fun state => ∃ d, .ok d ∈ stream ∧ state ∈ statesNamed d.comment)
    (fun state hmem => by rw [hstates] at hmem; cases hmem) (bindIn_learnAll hlearn hnamed) hnamed
  rw [hsettled, contains_states_settled, hnone] at hstate
  rcases hstate with hmem | hmem
  · cases hmem
  · rw [complete, states_assembled] at hmem
    exact hbound state hmem

end Selection

end LuaGlue
