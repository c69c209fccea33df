import LuaGlue.Proofs.Isolation.Frame
import LuaGlue.Proofs.Selection.Recorded
import LuaGlue.Proofs.Selection.Stock
import LuaGlue.Proofs.Spelling.Refs
import LuaGlue.Selection.Run

/-!
Two runs side by side.

One run meets a declaration and the other does not. From there on the two are `Beside` each other: they
agree on the frame, on what is planned, and on what is bound at every place but those of the declaration
(`hidden`). Each step of a run keeps this, because a step reads a place only to fill it, and then the place
is the same in both runs or hidden in both.

As long as the other run leaves the hidden places vacant, no step touches them in either run, and the two
runs record the same function types and bind in the same states (`Silent`).

    with the declaration      s ──register──▶ ▪ ──register──▶ ▪ ──finish──▶ ▪
                              │ Beside        │ Beside        │             │
    without it                s'──register──▶ ▪ ──register──▶ ▪ ──finish──▶ ▪
-/

namespace LuaGlue

/-! ### Types that leave no trace -/

mutual

/-- Does a walk through the type keep nothing? No class in it has a keyword, and no array in it a class. -/
def CxxType.isTraceless : CxxType → Bool
  | .record ref _ => ref.forward.isNone
  | .function params result _ _ => areTraceless params && result.isTraceless
  | .array _ element _ => element.refs.isEmpty
  | .void _ | .numeric _ _ | .bool _ | .text _ _ | .enum _ _ => true

/-- Does a walk through the types keep nothing? -/
def CxxType.areTraceless : List CxxType → Bool
  | [] => true
  | t :: ts => t.isTraceless && areTraceless ts

end

/-- Does a walk through the types of the function keep nothing? -/
def BoundFunction.IsTraceless (f : BoundFunction) : Prop :=
  (∀ t ∈ f.paramTypes, t.isTraceless = true) ∧ f.result.isTraceless = true

namespace Registry

/-! ### Filling a place -/

/-- The registry with a place filled, if what is there asks for it. -/
def fill (r : Registry) (p : Place) (update : Option BoundFunction → Option BoundFunction) : Registry :=
  match update (r.bound? p) with
  | some f => r.put p f
  | none => r

section Fill

variable {r : Registry} {p q : Place} {update : Option BoundFunction → Option BoundFunction}

theorem fill_of_eq_some {f : BoundFunction} (h : update (r.bound? p) = some f) : r.fill p update = r.put p f := by
  rw [fill, h]

theorem fill_of_eq_none (h : update (r.bound? p) = none) : r.fill p update = r := by rw [fill, h]

theorem frame_fill (r : Registry) (p : Place) (update : Option BoundFunction → Option BoundFunction) :
    (r.fill p update).frame = r.frame := by
  rw [fill]
  split
  · exact frame_put r p _
  · rfl

theorem signatures_fill (r : Registry) (p : Place) (update : Option BoundFunction → Option BoundFunction) :
    (r.fill p update).signatures = r.signatures := by
  rw [fill]
  split
  · exact signatures_put r p _
  · rfl

theorem bound?_fill_of_ne (r : Registry) (h : q ≠ p) (update : Option BoundFunction → Option BoundFunction) :
    (r.fill p update).bound? q = r.bound? q := by
  rw [fill]
  split
  · exact bound?_put_of_ne r h _
  · rfl

/-- What fills an empty place does not leave it empty. -/
theorem bound?_fill_ne_none (hhosts : r.hosts p = true) (hupdate : update none ≠ none) :
    (r.fill p update).bound? p ≠ none := by
  rw [fill]
  split
  · rw [bound?_put_self r hhosts]
    exact nofun
  · next h =>
    intro hnone
    rw [hnone] at h
    exact hupdate h

/-- A place that is filled stays so. -/
theorem bound?_fill_of_ne_none (h : r.bound? q ≠ none) (p : Place)
    (update : Option BoundFunction → Option BoundFunction) : (r.fill p update).bound? q ≠ none := by
  rw [fill]
  split
  · by_cases hq : q = p
    · subst hq
      have hhosts : r.hosts q = true := by
        cases hhosts : r.hosts q with
        | true => rfl
        | false => exact absurd (bound?_of_not_hosts hhosts) h
      rw [bound?_put_self r hhosts]
      exact nofun
    · rw [bound?_put_of_ne r hq]
      exact h
  · exact h

end Fill

/-- Is nothing bound at these places? -/
def Vacant (hidden : List Place) (r : Registry) : Prop := ∀ p ∈ hidden, r.bound? p = none

instance (hidden : List Place) (r : Registry) : Decidable (r.Vacant hidden) :=
  inferInstanceAs (Decidable (∀ p ∈ hidden, r.bound? p = none))

theorem Vacant.of_fill {hidden : List Place} {r : Registry} {p : Place}
    {update : Option BoundFunction → Option BoundFunction} (h : (r.fill p update).Vacant hidden) :
    r.Vacant hidden := by
  intro q hq
  cases hbound : r.bound? q with
  | none => rfl
  | some f =>
    have hkept := bound?_fill_of_ne_none (q := q) (r := r) (by rw [hbound]; exact nofun) p update
    exact absurd (h q hq) hkept

theorem Recording.frame_eq {r r' : Registry} (h : Recording r r') : r'.frame = r.frame := by
  rw [h.rest]
  rfl

theorem Recording.bound?_eq {r r' : Registry} (h : Recording r r') (p : Place) : r'.bound? p = r.bound? p := by
  rw [h.rest]
  cases p <;> rfl

theorem signatures_addSignatures_congr {r r' : Registry} (h : r.signatures = r'.signatures) (l : List Signature) :
    (r.addSignatures l).1.signatures = (r'.addSignatures l).1.signatures := by
  induction l generalizing r r' with
  | nil => exact h
  | cons s rest ih =>
    rw [addSignatures, addSignatures]
    split
    · next key _ =>
      refine ih ?_
      rw [addSignature, addSignature, h]
      split
      · exact h
      · rfl
    · exact h

end Registry

namespace Selection

open Registry

/-- The state of a run apart from what it has registered and reported. -/
def plan (s : Selection) : Selection := { s with registry := {}, states := ∅, skipped := 0, notices := [] }

/-- What two runs have in common while the hidden places are vacant in the second one. -/
structure Silent (hidden : List Place) (state : Option String) (r r' : Registry) (states states' : NameSet) :
    Prop where
  signatures : r.signatures = r'.signatures
  traceless : ∀ p ∈ hidden, ∀ f, r.bound? p = some f → f.IsTraceless
  states : ∀ name, states.contains name = true ↔ states'.contains name = true ∨ state = some name

/-- Are two runs the same but for the hidden places, and for one more state while those are vacant? -/
structure Beside (hidden : List Place) (state : Option String) (quiet : Prop) (s s' : Selection) : Prop where
  frame : s.registry.frame = s'.registry.frame
  bound : ∀ p ∉ hidden, s.registry.bound? p = s'.registry.bound? p
  plan : s.plan = s'.plan
  silent : quiet → s'.registry.Vacant hidden → Silent hidden state s.registry s'.registry s.states s'.states

section Beside

variable {hidden : List Place} {state : Option String} {quiet : Prop} {s s' t t' : Selection}

theorem Beside.requests (h : Beside hidden state quiet s s') : s.requests = s'.requests :=
  @congrArg _ _ s.plan s'.plan Selection.requests h.plan

theorem Beside.current (h : Beside hidden state quiet s s') : s.current = s'.current :=
  @congrArg _ _ s.plan s'.plan Selection.current h.plan

theorem Beside.exposed (h : Beside hidden state quiet s s') : s.exposed = s'.exposed :=
  @congrArg _ _ s.plan s'.plan Selection.exposed h.plan

theorem Beside.metamethods (h : Beside hidden state quiet s s') : s.metamethods = s'.metamethods :=
  @congrArg _ _ s.plan s'.plan Selection.metamethods h.plan

theorem Beside.redirectors (h : Beside hidden state quiet s s') : s.redirectors = s'.redirectors :=
  @congrArg _ _ s.plan s'.plan Selection.redirectors h.plan

theorem Beside.signature (h : Beside hidden state quiet s s') (f : DeclaredFunction) :
    s.signature f = s'.signature f := by
  have hknown : s.known = s'.known := @congrArg _ _ s.plan s'.plan Selection.known h.plan
  have htemplates : s.registry.templates = s'.registry.templates :=
    @congrArg _ _ s.registry.frame s'.registry.frame Registry.templates h.frame
  have hpatches : s.registry.patches = s'.registry.patches :=
    @congrArg _ _ s.registry.frame s'.registry.frame Registry.patches h.frame
  rw [Selection.signature, Selection.signature, Spelling.Context.of, Spelling.Context.of, hknown, htemplates,
    hpatches]

/-- Notices and plans that change in both runs. -/
theorem Beside.replan (h : Beside hidden state quiet s s') (hregistry : t.registry = s.registry)
    (hregistry' : t'.registry = s'.registry) (hstates : t.states = s.states) (hstates' : t'.states = s'.states)
    (hplan : t.plan = t'.plan) : Beside hidden state quiet t t' := by
  refine ⟨?_, fun p hp => ?_, hplan, fun hquiet hvacant => ?_⟩
  · rw [hregistry, hregistry', h.frame]
  · rw [hregistry, hregistry', h.bound p hp]
  · rw [hregistry'] at hvacant
    rw [hregistry, hregistry', hstates, hstates']
    exact h.silent hquiet hvacant

theorem Beside.note (h : Beside hidden state quiet s s') (n n' : Notice) :
    Beside hidden state quiet (s.note n) (s'.note n') :=
  h.replan rfl rfl rfl rfl h.plan

theorem Beside.skip (h : Beside hidden state quiet s s') (n n' : Notice) :
    Beside hidden state quiet (s.skip n) (s'.skip n') :=
  h.replan rfl rfl rfl rfl h.plan

theorem Beside.bindIn (h : Beside hidden state quiet s s') (name : String) :
    Beside hidden state quiet (s.bindIn name) (s'.bindIn name) := by
  refine ⟨h.frame, h.bound, h.plan, fun hquiet hvacant => ?_⟩
  obtain ⟨hsignatures, htraceless, hstates⟩ := h.silent hquiet hvacant
  refine ⟨hsignatures, htraceless, fun other => ?_⟩
  have hleft := NameSet.contains_insert s.states name other
  have hright := NameSet.contains_insert s'.states name other
  change (s.states.insert name).contains other = true ↔ (s'.states.insert name).contains other = true ∨ _
  rw [hleft, hright, Bool.or_eq_true, Bool.or_eq_true, hstates, or_assoc]

/-- A step on the frame comes to the same in both runs. -/
theorem Beside.framed {α : Type} (h : Beside hidden state quiet s s') {step : Registry → Registry × α}
    (hstep : Framed step) :
    Beside hidden state quiet (s.withRegistry (step s.registry).1) (s'.withRegistry (step s'.registry).1)
      ∧ (step s.registry).2 = (step s'.registry).2 := by
  obtain ⟨hframe, hresult⟩ := hstep.congr h.frame
  refine ⟨⟨hframe, fun p hp => ?_, h.plan, fun hquiet hvacant => ?_⟩, hresult⟩
  · change (step s.registry).1.bound? p = (step s'.registry).1.bound? p
    rw [hstep.bound, hstep.bound, h.bound p hp]
  · have hvacant' : s'.registry.Vacant hidden := fun p hp => (hstep.bound s'.registry p).symm.trans (hvacant p hp)
    obtain ⟨hsignatures, htraceless, hstates⟩ := h.silent hquiet hvacant'
    refine ⟨?_, fun p hp f hf => ?_, hstates⟩
    · change (step s.registry).1.signatures = (step s'.registry).1.signatures
      rw [hstep.signatures, hstep.signatures, hsignatures]
    · change (step s.registry).1.bound? p = some f at hf
      rw [hstep.bound] at hf
      exact htraceless p hp f hf

/-! ### Places that both runs fill -/

/-- While the hidden places stay vacant, a place that is filled was the same in both runs. -/
theorem Beside.bound?_eq (h : Beside hidden state quiet s s') {p : Place}
    {update : Option BoundFunction → Option BoundFunction} (hupdate : update none ≠ none)
    (hvacant : (s'.registry.fill p update).Vacant hidden) : s.registry.bound? p = s'.registry.bound? p := by
  by_cases hp : p ∈ hidden
  · cases hhosts : s'.registry.hosts p with
    | true => exact absurd (hvacant p hp) (bound?_fill_ne_none hhosts hupdate)
    | false =>
      rw [bound?_of_not_hosts hhosts, bound?_of_not_hosts ((hosts_of_frame_eq h.frame p).trans hhosts)]
  · exact h.bound p hp

theorem Beside.fill (h : Beside hidden state quiet s s') (p : Place)
    {update : Option BoundFunction → Option BoundFunction} (hupdate : update none ≠ none) :
    Beside hidden state quiet (s.withRegistry (s.registry.fill p update))
      (s'.withRegistry (s'.registry.fill p update)) := by
  have hhosts := hosts_of_frame_eq h.frame p
  have hoff : ∀ q, s.registry.bound? q = s'.registry.bound? q → s.registry.bound? p = s'.registry.bound? p →
      (s.registry.fill p update).bound? q = (s'.registry.fill p update).bound? q := by
    intro q hq hp
    by_cases hqp : q = p
    · subst hqp
      rw [Registry.fill, Registry.fill, hp]
      split
      · cases hhost : s.registry.hosts q with
        | true => rw [bound?_put_self _ hhost, bound?_put_self _ (hhosts ▸ hhost)]
        | false =>
          rw [bound?_of_not_hosts ((hosts_of_frame_eq (frame_put _ _ _) q).trans hhost),
            bound?_of_not_hosts ((hosts_of_frame_eq (frame_put _ _ _) q).trans (hhosts ▸ hhost))]
      · exact hp
    · rw [bound?_fill_of_ne _ hqp, bound?_fill_of_ne _ hqp, hq]
  refine ⟨?_, fun q hq => ?_, h.plan, fun hquiet hvacant => ?_⟩
  · change (s.registry.fill p update).frame = (s'.registry.fill p update).frame
    rw [frame_fill, frame_fill, h.frame]
  · change (s.registry.fill p update).bound? q = (s'.registry.fill p update).bound? q
    by_cases hqp : q = p
    · subst hqp
      exact hoff q (h.bound q hq) (h.bound q hq)
    · rw [bound?_fill_of_ne _ hqp, bound?_fill_of_ne _ hqp, h.bound q hq]
  · have hvacant' : s'.registry.Vacant hidden := Vacant.of_fill hvacant
    obtain ⟨hsignatures, htraceless, hstates⟩ := h.silent hquiet hvacant'
    refine ⟨?_, fun q hq f hf => ?_, hstates⟩
    · change (s.registry.fill p update).signatures = (s'.registry.fill p update).signatures
      rw [signatures_fill, signatures_fill, hsignatures]
    · change (s.registry.fill p update).bound? q = some f at hf
      by_cases hqp : q = p
      · subst hqp
        have hsame := h.bound?_eq hupdate hvacant
        have hnone : (s'.registry.fill q update).bound? q = none := hvacant q hq
        rw [hoff q hsame hsame, hnone] at hf
        cases hf
      · rw [bound?_fill_of_ne _ hqp] at hf
        exact htraceless q hq f hf

/-- Function types that are recorded in each run, and the same ones while the hidden places are vacant. -/
theorem Beside.recording (h : Beside hidden state quiet s s') (ht : Recording s t) (ht' : Recording s' t')
    (hsame : quiet → s'.registry.Vacant hidden → s.registry.signatures = s'.registry.signatures →
      t.registry.signatures = t'.registry.signatures) : Beside hidden state quiet t t' := by
  refine ⟨?_, fun p hp => ?_, ?_, fun hquiet hvacant => ?_⟩
  · rw [ht.registry.frame_eq, ht'.registry.frame_eq, h.frame]
  · rw [ht.registry.bound?_eq, ht'.registry.bound?_eq, h.bound p hp]
  · have hplan : ∀ {q q' : Selection}, Recording q q' → q'.plan = q.plan := fun hq => by rw [hq.rest]; rfl
    rw [hplan ht, hplan ht', h.plan]
  · have hvacant' : s'.registry.Vacant hidden := fun p hp => (ht'.registry.bound?_eq p).symm.trans (hvacant p hp)
    have hstates : ∀ {q q' : Selection}, Recording q q' → q'.states = q.states := fun hq => by rw [hq.rest]
    obtain ⟨hsignatures, htraceless, hboth⟩ := h.silent hquiet hvacant'
    refine ⟨hsame hquiet hvacant' hsignatures, fun p hp f hf => ?_, ?_⟩
    · rw [ht.registry.bound?_eq] at hf
      exact htraceless p hp f hf
    · rw [hstates ht, hstates ht']
      exact hboth

theorem signatures_wrapAll_congr (h : s.registry.signatures = s'.registry.signatures) (o : Overload)
    (result : CxxType) : (s.wrapAll o result).registry.signatures = (s'.wrapAll o result).registry.signatures := by
  rw [wrapAll, wrapAll]
  generalize o.map Param.type ++ [result] = ts
  induction ts generalizing s s' with
  | nil => exact h
  | cons t rest ih =>
    refine ih ?_
    have hregistry : ∀ q : Selection, (q.wrapSignatures t).registry = (q.registry.registerSignatures t).1 := by
      intro q
      rw [wrapSignatures]
      split <;> next heq => rw [heq]; rfl
    rw [hregistry, hregistry]
    exact signatures_addSignatures_congr h t.signatures

theorem recording_note (s : Selection) (n : Notice) : Recording s (s.note n) := ⟨rfl, .refl _⟩

/-- What one more overload makes of a place. -/
def extendWith (fresh : BoundFunction) (o : Overload) (old : Option BoundFunction) : Option BoundFunction :=
  ((old.getD fresh).addOverload o).toOption

theorem extendWith_none {fresh : BoundFunction} (h : fresh.overloads = []) (o : Overload) :
    extendWith fresh o none ≠ none := by
  simp [extendWith, BoundFunction.addOverload, BoundFunction.covers, h, Except.toOption]

/-- A function takes one more overload, unless that is covered. -/
theorem extendWith_or_some (fresh g : BoundFunction) (o : Overload) : (extendWith fresh o (some g)).or (some g)
    = some (if g.covers o then g else { g with overloads := g.overloads ++ [o] }) := by
  rw [extendWith, Option.getD_some, BoundFunction.addOverload]
  cases g.covers o <;> rfl

/-! ### Members -/

/-- A member fills its place, and then its function types are recorded if the place has changed. -/
theorem addMember_spec (s : Selection) {id : ClassId} {c : BoundClass} (hc : s.registry.class? id = some c)
    (f : DeclaredFunction) (o : Overload) (result : CxxType) :
    let p := Place.member id (kindOf f) f.name
    let update := extendWith (newMember c f result) o
    let filled := s.withRegistry (s.registry.fill p update)
    Recording filled (s.addMember id f o result)
      ∧ (s.addMember id f o result).registry.signatures
        = if (update (s.registry.bound? p)).isSome then (filled.wrapAll o result).registry.signatures
          else s.registry.signatures := by
  intro p update filled
  have hbound : s.registry.bound? p = (c.members (kindOf f)).get? f.name := by
    change ((s.registry.class? id).bind _) = _
    rw [hc]
    rfl
  rw [addMember, hc]
  simp only
  split
  · next m hadd =>
    have hupdate : update (s.registry.bound? p) = some m := by
      rw [hbound]
      simp [update, extendWith, hadd, Except.toOption]
    have hfilled : (s.modifyClass id fun d => d.withMembers (kindOf f) ((c.members (kindOf f)).insert f.name m))
        = filled := by
      have hput : s.registry.modifyClass id
            (fun d => d.withMembers (kindOf f) ((c.members (kindOf f)).insert f.name m))
          = s.registry.put p m := by
        refine congrArg (fun classes => ({ s.registry with classes } : Registry)) (List.ext_getElem? fun other => ?_)
        rw [List.getElem?_modify, List.getElem?_modify]
        by_cases hid : id = other
        · subst hid
          rw [class?] at hc
          rw [hc]
          rfl
        · simp only [if_neg hid]
      rw [Selection.modifyClass, hput, ← fill_of_eq_some hupdate]
    rw [hfilled, hupdate]
    exact ⟨(wrapAll_spec filled o result).1, rfl⟩
  · next reason hadd =>
    have hupdate : update (s.registry.bound? p) = none := by
      rw [hbound]
      simp [update, extendWith, hadd, Except.toOption]
    have hfilled : filled = s := by
      change s.withRegistry (s.registry.fill p update) = s
      rw [fill_of_eq_none hupdate]
      rfl
    rw [hfilled, hupdate]
    exact ⟨recording_note s _, rfl⟩

theorem Beside.addMember (h : Beside hidden state quiet s s') (id : ClassId) (f : DeclaredFunction) (o : Overload)
    (result : CxxType) :
    Beside hidden state quiet (s.addMember id f o result) (s'.addMember id f o result) := by
  rcases class?_of_frame_eq h.frame id with ⟨hc, hc'⟩ | ⟨c, c', hc, hc', hframe⟩
  · rw [Selection.addMember, Selection.addMember, hc, hc']
    exact h
  · have hfresh : newMember c f result = newMember c' f result := by
      rw [newMember, newMember, BoundClass.id_of_frame_eq hframe, BoundClass.source_of_frame_eq hframe]
    obtain ⟨hrecording, hsignatures⟩ := addMember_spec s hc f o result
    obtain ⟨hrecording', hsignatures'⟩ := addMember_spec s' hc' f o result
    rw [hfresh] at hrecording hsignatures
    have hupdate : extendWith (newMember c' f result) o none ≠ none := extendWith_none rfl o
    refine (h.fill (.member id (kindOf f) f.name) hupdate).recording hrecording hrecording' fun _ hvacant hsame => ?_
    have hsame' : s.registry.signatures = s'.registry.signatures := by
      change (s.registry.fill _ _).signatures = (s'.registry.fill _ _).signatures at hsame
      rwa [signatures_fill, signatures_fill] at hsame
    rw [hsignatures, hsignatures', h.bound?_eq hupdate hvacant]
    split
    · exact signatures_wrapAll_congr hsame o result
    · exact hsame'

theorem Beside.withSignature (h : Beside hidden state quiet s s') (f : DeclaredFunction)
    {bind bind' : Overload → CxxType → Selection}
    (hbind : ∀ o result, Beside hidden state quiet (bind o result) (bind' o result)) :
    Beside hidden state quiet (s.withSignature f bind) (s'.withSignature f bind') := by
  rw [Selection.withSignature, Selection.withSignature, h.signature f]
  split
  · exact h.skip _ _
  · exact hbind _ _

theorem Beside.registerMember (h : Beside hidden state quiet s s') (f : DeclaredFunction) :
    Beside hidden state quiet (s.registerMember f) (s'.registerMember f) := by
  rw [Selection.registerMember, Selection.registerMember, h.current, h.requests]
  split
  · exact h.note _ _
  · next id _ =>
    split
    · exact (h.framed (framed_makeDefault id)).1
    · split
      · exact h.note _ _
      · split
        · exact h.note _ _
        · exact h.withSignature f fun o result => h.addMember id f o result

/-! ### Free functions -/

/-- A free function fills the place of one Lua name after another. -/
theorem addNames_cons (s : Selection) (f : DeclaredFunction) (request : FunctionRequest) (o : Overload)
    (result : CxxType) (index : Nat) (taken : Bool) (luaName : String) (rest : List String) :
    let p := Place.free (Scope.qualify request.scope luaName)
    let update := extendWith (newFunction f request index luaName result) o
    ∃ notices, s.addNames f request o result index taken (luaName :: rest)
      = { s.withRegistry (s.registry.fill p update) with notices }.addNames f request o result (index + 1)
        (taken || (update (s.registry.bound? p)).isSome) rest := by
  intro p update
  rw [addNames]
  simp only
  split
  · next g hadd =>
    have hupdate : update (s.registry.bound? p) = some g := by
      simp [update, extendWith, p, bound?, hadd, Except.toOption]
    rw [fill_of_eq_some hupdate, hupdate, Option.isSome_some, Bool.or_true]
    exact ⟨s.notices, rfl⟩
  · next reason hadd =>
    have hupdate : update (s.registry.bound? p) = none := by
      simp [update, extendWith, p, bound?, hadd, Except.toOption]
    rw [fill_of_eq_none hupdate, hupdate, Option.isSome_none, Bool.or_false]
    exact ⟨_, rfl⟩

theorem Beside.addNames (h : Beside hidden state quiet s s') (f : DeclaredFunction) (request : FunctionRequest)
    (o : Overload) (result : CxxType) (index : Nat) {taken taken' : Bool}
    (htaken : quiet → s'.registry.Vacant hidden → taken = taken') (names : List String) :
    Beside hidden state quiet (s.addNames f request o result index taken names).1
        (s'.addNames f request o result index taken' names).1
      ∧ (quiet → (s'.addNames f request o result index taken' names).1.registry.Vacant hidden →
        (s.addNames f request o result index taken names).2
          = (s'.addNames f request o result index taken' names).2) := by
  induction names generalizing s s' index taken taken' with
  | nil => exact ⟨h, htaken⟩
  | cons luaName rest ih =>
    obtain ⟨notices, heq⟩ := addNames_cons s f request o result index taken luaName rest
    obtain ⟨notices', heq'⟩ := addNames_cons s' f request o result index taken' luaName rest
    have hupdate : extendWith (newFunction f request index luaName result) o none ≠ none := extendWith_none rfl o
    have hfilled := h.fill (.free (Scope.qualify request.scope luaName)) hupdate
    have hnext : Beside hidden state quiet { s.withRegistry (s.registry.fill _ _) with notices }
        { s'.withRegistry (s'.registry.fill _ _) with notices := notices' } :=
      hfilled.replan rfl rfl rfl rfl hfilled.plan
    rw [heq, heq']
    refine ih hnext (index + 1) fun hquiet hvacant => ?_
    rw [h.bound?_eq hupdate hvacant, htaken hquiet (Vacant.of_fill hvacant)]

theorem Beside.wrapAll (h : Beside hidden state quiet s s') (o : Overload) (result : CxxType) :
    Beside hidden state quiet (s.wrapAll o result) (s'.wrapAll o result) :=
  h.recording (wrapAll_spec s o result).1 (wrapAll_spec s' o result).1 fun _ _ hsame =>
    signatures_wrapAll_congr hsame o result

/-- A run that takes a function that the other one does not: they are still the same but for silence. -/
theorem Beside.of_not_vacant (h : Beside hidden state quiet s s') (hvacant : quiet → ¬ s'.registry.Vacant hidden)
    (ht : t.registry.frame = s.registry.frame ∧ (∀ p, t.registry.bound? p = s.registry.bound? p) ∧ t.plan = s.plan)
    (ht' : t'.registry.frame = s'.registry.frame ∧ (∀ p, t'.registry.bound? p = s'.registry.bound? p)
      ∧ t'.plan = s'.plan) : Beside hidden state quiet t t' := by
  refine ⟨?_, fun p hp => ?_, ?_, fun hquiet hleft => ?_⟩
  · rw [ht.1, ht'.1, h.frame]
  · rw [ht.2.1, ht'.2.1, h.bound p hp]
  · rw [ht.2.2, ht'.2.2, h.plan]
  · exact absurd (fun p hp => (ht'.2.1 p).symm.trans (hleft p hp)) (hvacant hquiet)

theorem Beside.addFunction (h : Beside hidden state quiet s s') (f : DeclaredFunction) (request : FunctionRequest) :
    Beside hidden state quiet (s.addFunction f request) (s'.addFunction f request) := by
  refine h.withSignature f fun o result => ?_
  have hstart : quiet → s'.registry.Vacant hidden → false = false := fun _ _ => rfl
  obtain ⟨hnames, hflags⟩ := h.addNames f request o result 0 hstart request.names
  have hsame : ∀ q : Selection, q.registry.frame = q.registry.frame
      ∧ (∀ p, q.registry.bound? p = q.registry.bound? p) ∧ q.plan = q.plan := fun _ => ⟨rfl, fun _ => rfl, rfl⟩
  have hbound : ∀ q : Selection, ((q.wrapAll o result).bindIn request.state).registry.frame = q.registry.frame
      ∧ (∀ p, ((q.wrapAll o result).bindIn request.state).registry.bound? p = q.registry.bound? p)
      ∧ ((q.wrapAll o result).bindIn request.state).plan = q.plan := by
    intro q
    have hrecording := (wrapAll_spec q o result).1
    refine ⟨hrecording.registry.frame_eq, hrecording.registry.bound?_eq, ?_⟩
    change (q.wrapAll o result).plan = q.plan
    rw [hrecording.rest]
    rfl
  cases hleft : s.addNames f request o result 0 false request.names with
  | mk t flag =>
    cases hright : s'.addNames f request o result 0 false request.names with
    | mk t' flag' =>
      rw [hleft, hright] at hnames hflags
      cases flag with
      | true =>
        cases flag' with
        | true => exact (hnames.wrapAll o result).bindIn request.state
        | false =>
          exact hnames.of_not_vacant (fun hquiet hvacant => by cases hflags hquiet hvacant) (hbound t) (hsame t')
      | false =>
        cases flag' with
        | true =>
          exact hnames.of_not_vacant (fun hquiet hvacant => by cases hflags hquiet hvacant) (hsame t) (hbound t')
        | false => exact hnames

end Beside

end Selection

end LuaGlue
