import LuaGlue.Proofs.Isolation.Planted

/-!
What one more free function changes in the settled registry.

After a free function that is bound, only enums are met before the end of the run. They leave the functions
and the function types alone, and so does what is assembled at the end, up to the survey. If the function is
bound in the end and its classes are registered without it, the survey notes the same undeclared classes with
the function and without it. So both runs settle to the same classes, enums and functions of other states;
with the function there may be more function types, and more headers that every file includes (`Widens`).
-/

namespace LuaGlue

open Selection

namespace Registry

/-- The registry without free functions, function types, headers and states. -/
def core (r : Registry) : Registry := { r with functions := ∅, signatures := ∅, headers := ∅, states := ∅ }

theorem signatures_core (r : Registry) : r.core.signatures = ∅ := rfl

theorem bound?_core_free (r : Registry) (key : String) : r.core.bound? (.free key) = none := rfl

theorem bound?_core_member (r : Registry) (id : ClassId) (kind : MemberKind) (name : String) :
    r.core.bound? (.member id kind name) = r.bound? (.member id kind name) := rfl

theorem classes_of_core_eq {r r' : Registry} (h : r.core = r'.core) : r.classes = r'.classes :=
  @congrArg _ _ r.core r'.core Registry.classes h

/-- A registry as another one with more function types and more headers, as a state sees it. -/
structure Widens (state : String) (r r' : Registry) : Prop where
  core : r'.core = r.core
  functions : (r'.functions.values.filter fun f => f.state == some state)
    = r.functions.values.filter fun f => f.state == some state
  signatures : ∀ key s, r.signatures.get? key = some s → r'.signatures.get? key = some s
  headers : ∀ header, r.headers.contains header = true → r'.headers.contains header = true

variable {r r' : Registry} {types : List CxxType}

theorem kept_of_bound {places : List Place} {state : Option String}
    (hbound : ∀ p ∈ places, ∃ g, r.bound? p = some g ∧ g.state = state) : ∀ p ∈ places, r.bound? p ≠ none := by
  intro p hp
  obtain ⟨g, hg, -⟩ := hbound p hp
  rw [hg]
  exact nofun

theorem visit_of_frame_eq (h : r.frame = r'.frame) : r.visit = r'.visit := by
  funext met f
  rw [visit, visit, function_reach_congr h]

/-- A class that is noted is not registered. -/
theorem absent_of_meets {scope name : String} (h : r.Meets types (.forward scope name)) :
    (∃ t ∈ types, ∃ ref ∈ t.refs, ref.scope = scope ∧ ref.name = name) ∧ r.find? scope name = none := by
  obtain ⟨t, ht, onlyRead, hnoted⟩ := h
  constructor
  · rcases (noting_reach r ⟨onlyRead, false⟩ {} t).named scope name hnoted with hnone | ⟨ref, href, hsame⟩
    · exact absurd hnone (Reached.not_has_empty (x := .forward scope name))
    · exact ⟨t, ht, ref, href, hsame⟩
  · exact keeps_reach (P := fun met => ∀ scope name, met.Notes scope name → r.find? scope name = none)
      (fun _ _ h => h) (fun met scope name hfind h scope' name' hnoted => by
        rcases Reached.notes_addForward.1 hnoted with ⟨rfl, rfl⟩ | hold
        · exact hfind
        · exact h scope' name' hold) ⟨onlyRead, false⟩ t
      (fun scope name hnone => absurd hnone (Reached.not_has_empty (x := .forward scope name))) scope name hnoted

/-! ### Thin classes -/

/-- With a thin class for each scope and name. -/
def addThinClasses (r : Registry) (names : List (String × String)) : Registry :=
  names.foldl (fun r name => (r.addThinClass name.2 name.1 "").1) r

theorem addThinClasses_cons (r : Registry) (name : String × String) (rest : List (String × String)) :
    r.addThinClasses (name :: rest) = (r.addThinClass name.2 name.1 "").1.addThinClasses rest := rfl

theorem onlyClasses_addThinClasses (r : Registry) (names : List (String × String)) :
    OnlyClasses r (r.addThinClasses names) := by
  induction names generalizing r with
  | nil => exact .refl r
  | cons name rest ih => exact (onlyClasses_addThinClass r name.2 name.1 "").trans (ih _)

theorem frame_addThinClasses_congr (h : r.frame = r'.frame) (names : List (String × String)) :
    (r.addThinClasses names).frame = (r'.addThinClasses names).frame := by
  induction names generalizing r r' with
  | nil => exact h
  | cons name rest ih => exact ih ((framed_addThinClass name.2 name.1 "").congr h).1

theorem mem_addThinClasses {c : BoundClass} (h : c ∈ r.classes) (names : List (String × String)) :
    c ∈ (r.addThinClasses names).classes := by
  induction names generalizing r with
  | nil => exact h
  | cons name rest ih =>
    rw [addThinClasses_cons]
    refine ih ?_
    rw [addThinClass]
    split
    · exact List.mem_append_left _ h
    · exact h

theorem mem_addThinClasses_or {names : List (String × String)} {c : BoundClass}
    (h : c ∈ (r.addThinClasses names).classes) : c ∈ r.classes ∨ (c.scope, c.name) ∈ names := by
  induction names generalizing r with
  | nil => exact .inl h
  | cons name rest ih =>
    rw [addThinClasses_cons] at h
    rcases ih h with hfirst | hrest
    · rw [addThinClass] at hfirst
      split at hfirst
      · rcases mem_appendClass hfirst with hold | rfl
        · exact .inl hold
        · exact .inr List.mem_cons_self
      · exact .inl hfirst
    · exact .inr (List.mem_cons_of_mem _ hrest)

theorem bare_prune (r : Registry) (found : Survey) : (prune r found).bare = r.bare :=
  @congrArg _ _ (prune r found).frame r.frame Registry.classes (frame_prune r found)

theorem headers_prune (r : Registry) (found : Survey) : (prune r found).headers = r.headers :=
  @congrArg _ _ (prune r found).frame r.frame Registry.headers (frame_prune r found)

end Registry

namespace Selection

open Registry

/-! ### Up to the survey -/

theorem signatures_registerEnum (s : Selection) (e : DeclaredEnum) :
    (s.registerEnum e).registry.signatures = s.registry.signatures := by
  rw [registerEnum]
  split
  · rfl
  · split
    · next hadd =>
      obtain ⟨-, rfl⟩ := addEnum_ok hadd
      rfl
    · rfl

theorem signatures_addRequestedBases (s : Selection) (bases : List (String × String)) :
    (s.addRequestedBases bases).1.registry.signatures = s.registry.signatures := by
  refine addRequestedBases_induction (P := fun t => t.registry.signatures = s.registry.signatures)
    (fun t derived base h => ?_) rfl bases
  rw [addRequestedBase]
  simp only
  split
  · exact h
  · next id _ => rw [← h, withRegistry, onlyClasses_addBaseNamed t.registry id base]

theorem signatures_attachRedirector (s : Selection) (p : Pending RedirectorRequest) :
    (s.attachRedirector p).registry.signatures = s.registry.signatures := by
  rw [attachRedirector]
  simp only
  split <;> rfl

theorem signatures_attachMetamethod (s : Selection) (p : Pending MetamethodRequest) :
    (s.attachMetamethod p).registry.signatures = s.registry.signatures := by
  rw [attachMetamethod]
  simp only
  split
  · rfl
  · split
    · rfl
    · split <;> rfl

theorem signatures_assembled (s : Selection) : s.assembled.registry.signatures = s.registry.signatures :=
  keeps_assembled (P := fun t => t.registry.signatures = s.registry.signatures)
    (fun t p ht => (signatures_attachRedirector t p).trans ht)
    (fun t p ht => (signatures_attachMetamethod t p).trans ht) (signatures_addRequestedBases s s.requests.bases)

/-- Enums leave free functions and function types alone. -/
theorem registerAll_enums (s : Selection) {post : List (Except DeclarationError Declaration)}
    (hpost : ∀ item ∈ post, ∃ e, item = .ok (.enum e)) :
    (s.registerAll post).1.registry.functions = s.registry.functions
      ∧ (s.registerAll post).1.registry.signatures = s.registry.signatures := by
  induction post generalizing s with
  | nil => exact ⟨rfl, rfl⟩
  | cons item rest ih =>
    obtain ⟨e, rfl⟩ := hpost item List.mem_cons_self
    obtain ⟨hfunctions, hsignatures⟩ := ih (s.registerEnum e) fun other hother => hpost other (List.mem_cons_of_mem _ hother)
    exact ⟨hfunctions.trans (aside_registerEnum s e).functions, hsignatures.trans (signatures_registerEnum s e)⟩

/-- What a run has assembled, and what it has assembled with one more free function. -/
structure Widened (request : FunctionRequest) (types : List CxxType) (s t : Selection) : Prop where
  beside : Beside (placesOf request) none False t s
  planted : ∀ p, Planted types (s.registry.bound? p) (t.registry.bound? p)
  records : Records types s.registry.signatures t.registry.signatures

theorem mem_placesOf {request : FunctionRequest} {p : Place} (h : p ∈ placesOf request) : ∃ key, p = .free key := by
  obtain ⟨luaName, -, rfl⟩ := List.mem_map.1 h
  exact ⟨_, rfl⟩

/-- Enums and the end of the run do not bring the two runs closer or farther apart. -/
theorem Plants.widened {request : FunctionRequest} {types : List CxxType} {s t : Selection}
    (h : Plants (placesOf request) types s t) {post : List (Except DeclarationError Declaration)}
    (hpost : ∀ item ∈ post, ∃ e, item = .ok (.enum e)) :
    Widened request types (s.registerAll post).1.assembled (t.registerAll post).1.assembled := by
  have hbeside := ((h.beside.registerAll post).1.assembled).1
  have hfunctions : ∀ u : Selection, (u.registerAll post).1.assembled.registry.functions = u.registry.functions :=
    fun u => (aside_assembled _).functions.trans (registerAll_enums u hpost).1
  have hsignatures : ∀ u : Selection, (u.registerAll post).1.assembled.registry.signatures = u.registry.signatures :=
    fun u => (signatures_assembled _).trans (registerAll_enums u hpost).2
  refine ⟨hbeside, fun p => ?_, ?_⟩
  · by_cases hp : p ∈ placesOf request
    · obtain ⟨key, rfl⟩ := mem_placesOf hp
      have hplanted := h.planted (.free key)
      rw [bound?, bound?] at hplanted ⊢
      rwa [hfunctions, hfunctions]
    · rw [hbeside.bound p hp]
      exact .refl types _
  · rw [hsignatures, hsignatures]
    exact h.records

/-! ### Settling -/

theorem settle_eq (pruned : Registry) (met : Reached) (states : NameSet) :
    settle pruned met states = { pruned.addThinClasses met.forwardClasses with
      headers := (pruned.addThinClasses met.forwardClasses).headers.insertAll
        (met.headers.toList.filter fun header => !header.isEmpty)
      states := (pruned.addThinClasses met.forwardClasses).states.insertAll states.toList } := rfl

theorem headers_settled (s : Selection) (header : String) : s.settled.headers.contains header = true
    ↔ s.registry.headers.contains header = true ∨ header ≠ "" ∧ (survey s.registry).met.headers.contains header = true := by
  rw [settled_eq_settle, settle_eq, NameSet.contains_insertAll, onlyClasses_addThinClasses, headers_prune, or_comm,
    List.mem_filter, NameSet.mem_toList]
  simp [and_comm]

theorem frame_core_settle (pruned : Registry) (met : Reached) (states : NameSet) : (settle pruned met states).core.frame
    = { (pruned.addThinClasses met.forwardClasses).frame with headers := ∅, states := ∅ } := rfl

/-- A class that is registered in the end was registered before, or it is noted. -/
theorem mem_classes_settled (s : Selection) {c : BoundClass} (h : c ∈ s.settled.classes) :
    (∃ d ∈ s.registry.classes, d.qualified = c.qualified) ∨ (survey s.registry).met.Notes c.scope c.name := by
  rw [settled_eq_settle] at h
  rcases mem_addThinClasses_or h with hpruned | hnoted
  · have hmem : c.frame ∈ (prune s.registry (survey s.registry)).bare := List.mem_map_of_mem hpruned
    rw [bare_prune] at hmem
    obtain ⟨d, hd, hframe⟩ := List.mem_map.1 hmem
    exact .inl ⟨d, hd, @congrArg _ _ d.frame c.frame BoundClass.qualified hframe⟩
  · exact .inr (Reached.mem_forwardClasses.1 hnoted)

/-- A class that was registered before is registered in the end. -/
theorem exists_mem_classes_settled (s : Selection) {c : BoundClass} (h : c ∈ s.registry.classes) :
    ∃ d ∈ s.settled.classes, d.frame = c.frame := by
  have hmem : c.frame ∈ s.registry.bare := List.mem_map_of_mem h
  rw [← bare_prune s.registry (survey s.registry)] at hmem
  obtain ⟨d, hd, hframe⟩ := List.mem_map.1 hmem
  rw [settled_eq_settle]
  exact ⟨d, mem_addThinClasses hd _, hframe⟩

namespace Widened

variable {request : FunctionRequest} {types : List CxxType} {s t : Selection}

/-- What is bound in the end at the places of the request does not name a missing class. -/
theorem misses (hplaced : t.registry.Placed) (hkept : ∀ p ∈ placesOf request, t.settled.bound? p ≠ none) {p : Place}
    (hp : p ∈ placesOf request) {g : BoundFunction} (hg : t.registry.bound? p = some g) : t.registry.misses g = false := by
  obtain ⟨key, rfl⟩ := mem_placesOf hp
  obtain ⟨f, hf⟩ := Option.ne_none_iff_exists'.1 (hkept _ hp)
  obtain ⟨hbound, hleft⟩ := (bound?_settled_iff t hplaced).1 hf
  rw [hg] at hbound
  obtain rfl : g = f := Option.some.inj hbound
  exact Bool.eq_false_iff.2 fun hmisses => hleft ⟨rfl, hmisses⟩

variable (h : Widened request types s t) (hplaced : s.registry.Placed) (hplaced' : t.registry.Placed)
  (hkept : ∀ p ∈ placesOf request, t.settled.bound? p ≠ none)

include h hplaced hplaced' hkept

/-- With the function the survey meets what it meets without it. -/
theorem has_of_has {x : Finding} (hx : (survey s.registry).met.Has x) : (survey t.registry).met.Has x := by
  obtain ⟨p, f, hsurveys, hbound, hvisit⟩ := (has_survey_iff hplaced).1 hx
  rw [← visit_of_frame_eq h.beside.frame] at hvisit
  refine (has_survey_iff hplaced').2 ?_
  obtain ⟨g, hg, hext⟩ := (h.planted p).kept f hbound
  refine ⟨p, g, (surveys_of_frame_eq h.beside.frame p).trans hsurveys, hg, ?_⟩
  by_cases hp : p ∈ placesOf request
  · exact hext.visit_has (misses hplaced' hkept hp hg) hvisit
  · have hsame := h.beside.bound p hp
    rw [hg, hbound] at hsame
    obtain rfl : g = f := Option.some.inj hsame
    exact hvisit

/-- What else it meets with the function are the types of the function. -/
theorem has_or {x : Finding} (hx : (survey t.registry).met.Has x) :
    (survey s.registry).met.Has x ∨ t.registry.Meets types x := by
  obtain ⟨p, g, hsurveys, hbound, hvisit⟩ := (has_survey_iff hplaced').1 hx
  have hsurveys' : s.registry.surveys p = true := (surveys_of_frame_eq h.beside.frame p).symm.trans hsurveys
  have hfound : ∀ f, s.registry.bound? p = some f → (t.registry.visit {} f).Has x → (survey s.registry).met.Has x := by
    intro f hf hvisit
    rw [visit_of_frame_eq h.beside.frame] at hvisit
    exact (has_survey_iff hplaced).2 ⟨p, f, hsurveys', hf, hvisit⟩
  by_cases hp : p ∈ placesOf request
  · have hmisses := misses hplaced' hkept hp hbound
    cases hold : s.registry.bound? p with
    | some f =>
      obtain ⟨k, hk, hext⟩ := (h.planted p).kept f hold
      rw [hbound] at hk
      obtain rfl : g = k := Option.some.inj hk
      exact (hext.visit_has_or hmisses hvisit).imp_left (hfound f hold)
    | none =>
      refine .inr ?_
      rcases (h.planted p).fresh hold g hbound with hwrapper | ⟨hparams, hresult⟩
      · rw [visit, if_pos (Option.isSome_iff_ne_none.2 hwrapper)] at hvisit
        exact absurd hvisit Reached.not_has_empty
      · rw [visit] at hvisit
        split at hvisit
        · exact absurd hvisit Reached.not_has_empty
        · rcases exists_of_function_has hvisit with ⟨type, htype, hx⟩ | hx
          · exact ⟨type, hparams type htype, true, hx⟩
          · exact ⟨g.result, hresult, false, hx⟩
  · have hsame := h.beside.bound p hp
    exact .inl (hfound g (hsame ▸ hbound) hvisit)

variable (hclasses : ∀ type ∈ types, ∀ ref ∈ type.refs,
  ∃ c ∈ s.settled.classes, c.scope = ref.scope ∧ c.name = ref.name)

include hclasses

/-- Both runs note the same undeclared classes. -/
theorem forwardClasses_eq : (survey t.registry).met.forwardClasses = (survey s.registry).met.forwardClasses := by
  refine Reached.forwardClasses_eq fun scope name => ⟨fun hnoted => ?_, ?_⟩
  · rcases h.has_or hplaced hplaced' hkept (x := .forward scope name) hnoted with hold | hmeets
    · exact hold
    · obtain ⟨⟨type, htype, ref, href, rfl, rfl⟩, habsent⟩ := absent_of_meets hmeets
      obtain ⟨c, hc, hscope, hname⟩ := hclasses type htype ref href
      rcases mem_classes_settled s hc with ⟨d, hd, hqualified⟩ | hnoted
      · rcases find?_of_frame_eq h.beside.frame ref.scope ref.name with ⟨-, hnone⟩ | ⟨c, -, hfound, -⟩
        · have hne := List.find?_eq_none.1 hnone d hd
          rw [hqualified, BoundClass.qualified, hscope, hname] at hne
          exact absurd (beq_self_eq_true _) hne
        · rw [habsent] at hfound
          cases hfound
      · rwa [hscope, hname] at hnoted
  · exact h.has_of_has hplaced hplaced' hkept (x := .forward scope name)

/-- Both runs settle to the same classes and enums. -/
theorem core_settled : t.settled.core = s.settled.core := by
  have hpruned : (prune t.registry (survey t.registry)).frame = (prune s.registry (survey s.registry)).frame := by
    rw [frame_prune, frame_prune, h.beside.frame]
  refine Registry.eq_of_frame_eq ?_ (fun p => ?_) (by rw [signatures_core, signatures_core])
  · rw [settled_eq_settle, settled_eq_settle, frame_core_settle, frame_core_settle,
      h.forwardClasses_eq hplaced hplaced' hkept hclasses, frame_addThinClasses_congr hpruned]
  · cases p with
    | free key => rw [bound?_core_free, bound?_core_free]
    | member id kind name =>
      have hp : Place.member id kind name ∉ placesOf request := fun hp => by
        obtain ⟨key, hkey⟩ := mem_placesOf hp
        cases hkey
      rw [bound?_core_member, bound?_core_member]
      exact h.beside.bound?_settled hplaced' hplaced hp

/-- What else every file includes are the headers of classes inside arrays in the types of the function. -/
theorem headers_settled_or {header : String} (hheader : t.settled.headers.contains header = true) :
    s.settled.headers.contains header = true ∨ ∃ type ∈ types, ∃ ref ∈ type.held false, ∃ c ∈ s.settled.classes,
      c.qualified = ref.qualified ∧ c.source = header := by
  have hheaders : t.registry.headers = s.registry.headers :=
    @congrArg _ _ t.registry.frame s.registry.frame Registry.headers h.beside.frame
  rw [headers_settled, hheaders] at hheader
  rw [headers_settled]
  rcases hheader with hold | ⟨hempty, hmet⟩
  · exact .inl (.inl hold)
  · rcases h.has_or hplaced hplaced' hkept (x := .header header) hmet with hold | ⟨type, htype, onlyRead, hmeets⟩
    · exact .inl (.inr ⟨hempty, hold⟩)
    · rcases held_of_reach_has ⟨onlyRead, false⟩ type hmeets with hnone | ⟨ref, href, c, hfind, rfl⟩
      · exact absurd hnone (Reached.not_has_empty (x := .header header))
      · obtain ⟨d, hd, hframe⟩ := exists_mem_classes_settled t (mem_of_find? hfind)
        have hclass : t.settled.classes = s.settled.classes :=
          classes_of_core_eq (h.core_settled hplaced hplaced' hkept hclasses)
        have hqualified : d.qualified = c.qualified := @congrArg _ _ d.frame c.frame BoundClass.qualified hframe
        exact .inr ⟨type, htype, ref, href, d, hclass ▸ hd, hqualified.trans (qualified_of_find? hfind),
          @congrArg _ _ d.frame c.frame BoundClass.source hframe⟩

omit hkept hclasses in
/-- What else is recorded are function types of the function. -/
theorem signatures_settled_or {key : String} (hkey : t.settled.signatures.contains key = true) :
    s.settled.signatures.contains key = true ∨ ∃ type ∈ types, ∃ sig ∈ type.signatures, sig.wrapperName = .ok key := by
  rw [(t.survivors hplaced').signatures] at hkey
  rw [(s.survivors hplaced).signatures]
  exact h.records.added key hkey

omit hkept in
/-- For another state the function only widens what there is. -/
theorem widens (hbound : ∀ p ∈ placesOf request, ∃ g, t.settled.bound? p = some g ∧ g.state = some request.state)
    {state : String} (hstate : state ≠ request.state) : Widens state s.settled t.settled := by
  have hkept := kept_of_bound hbound
  refine ⟨h.core_settled hplaced hplaced' hkept hclasses, ?_, ?_, fun header hheader => ?_⟩
  · refine NameMap.filter_values_eq fun key => ?_
    have hsame : ∀ u : Selection, u.settled.functions.get? key = u.settled.bound? (.free key) := fun _ => rfl
    rw [hsame, hsame]
    by_cases hp : Place.free key ∈ placesOf request
    · obtain ⟨g, hg, hgstate⟩ := hbound _ hp
      have hother : ∀ f : BoundFunction, f.state = some request.state → (f.state == some state) = false := by
        intro f hf
        rw [hf, beq_eq_false_iff_ne]
        exact fun heq => hstate (Option.some.inj heq).symm
      rw [hg, Option.filter_some_neg (by simpa using hother g hgstate)]
      cases hold : s.settled.bound? (.free key) with
      | none => rfl
      | some f =>
        obtain ⟨k, hk, hext⟩ := (h.planted (.free key)).kept f ((bound?_settled_iff s hplaced).1 hold).1
        rw [((bound?_settled_iff t hplaced').1 hg).1] at hk
        obtain rfl : g = k := Option.some.inj hk
        rw [Option.filter_some_neg (by simpa using hother f (hext.state.symm.trans hgstate))]
    · rw [h.beside.bound?_settled hplaced' hplaced hp]
  · rw [(s.survivors hplaced).signatures, (t.survivors hplaced').signatures]
    exact h.records.kept
  · rw [headers_settled] at hheader ⊢
    have hheaders : t.registry.headers = s.registry.headers :=
      @congrArg _ _ t.registry.frame s.registry.frame Registry.headers h.beside.frame
    rw [hheaders]
    exact hheader.imp_right (And.imp_right (h.has_of_has hplaced hplaced' hkept (x := .header header)))

end Widened

end Selection

end LuaGlue
