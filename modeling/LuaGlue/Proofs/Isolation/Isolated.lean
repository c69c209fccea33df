import LuaGlue.Proofs.Isolation.Binding

/-!
What a function leaves behind when it does not get bound.

The run over a sequence of declarations is compared with the run over the sequence without one function
(`skipped_function_isolated`). Both end alike and agree off the places of the function. A function whose
types cannot be read leaves nothing at all. One that is bound and dropped in the end leaves nothing if it was
alone at its places and nothing was registered on the way: what the survey drops is a whole place, with every
overload that is bound there.

    Spawn(int)                  bound at ::Spawn
    Spawn(int) · Spawn(Gone*)   both bound at ::Spawn, and the survey drops ::Spawn
-/

namespace LuaGlue

namespace Selection

open Registry

/-! ### The end of two runs -/

theorem changes_assembled (s : Selection) : Changes s.registry s.assembled.registry :=
  keeps_assembled (P := fun t => Changes s.registry t.registry)
    (fun t p ht => ht.trans (changes_attachRedirector t p)) (fun t p ht => ht.trans (changes_attachMetamethod t p))
    (changes_addRequestedBases s s.requests.bases)

/-- The end of a run: it stops at a base that closes a cycle, or it settles what has been assembled. -/
theorem finish_cases (s : Selection) :
    (∃ cause, (s.addRequestedBases s.requests.bases).2 = some cause
        ∧ s.finish = ((s.addRequestedBases s.requests.bases).1, some cause))
      ∨ ((s.addRequestedBases s.requests.bases).2 = none
        ∧ ∃ t, s.finish = (t, none) ∧ t.registry = s.assembled.settled) := by
  rw [finish, assembled]
  cases s.addRequestedBases s.requests.bases with
  | mk t abort =>
    cases abort with
    | some cause => exact .inl ⟨cause, rfl, rfl⟩
    | none => exact .inr ⟨rfl, _, rfl, rfl⟩

section Finish

variable {hidden : List Place} {state : Option String} {quiet : Prop} {s s' : Selection}

/-- Two runs that hide nothing and register nothing apart have one registry. -/
theorem Beside.registry_eq (h : Beside [] none True s s') : s.registry = s'.registry :=
  Registry.eq_of_frame_eq h.frame (fun p => h.bound p List.not_mem_nil) (h.silent trivial nofun).1

/-- Two runs stop at the same base, or both settle. -/
theorem Beside.finish_cases (h : Beside hidden state quiet s s') :
    (∃ t t' cause, s.finish = (t, some cause) ∧ s'.finish = (t', some cause) ∧ Beside hidden state quiet t t')
      ∨ ∃ t t', s.finish = (t, none) ∧ s'.finish = (t', none) ∧ t.registry = s.assembled.settled
        ∧ t'.registry = s'.assembled.settled := by
  have habort := h.assembled.2
  have hbased := (h.addRequestedBases s.requests.bases).1
  rcases s.finish_cases with ⟨cause, hstop, hfinish⟩ | ⟨hdone, t, hfinish, hsettled⟩
  · rcases s'.finish_cases with ⟨cause', hstop', hfinish'⟩ | ⟨hdone', -, -⟩
    · rw [hstop, hstop'] at habort
      cases habort
      rw [h.requests] at hfinish hbased
      exact .inl ⟨_, _, cause, hfinish, hfinish', hbased⟩
    · rw [hstop, hdone'] at habort
      cases habort
  · rcases s'.finish_cases with ⟨cause', hstop', -⟩ | ⟨-, t', hfinish', hsettled'⟩
    · rw [hdone, hstop'] at habort
      cases habort
    · exact .inr ⟨t, t', hfinish, hfinish', hsettled, hsettled'⟩

end Finish

/-! ### Both passes -/

/-- A comment that names no state asks for nothing. -/
theorem heed_of_unasked (s : Selection) {comment : String}
    (h : (Annotations.parse comment).get? "LuaStateTypes" = none) : s.heed comment = s := by
  rw [heed, Request.of, h]

/-- A function adds no name. -/
theorem learn_of_unasked (s : Selection) {f : DeclaredFunction}
    (h : (Annotations.parse f.comment).get? "LuaStateTypes" = none) : s.learn (.function f) = s :=
  heed_of_unasked s h

theorem learnAll_without (s : Selection) {f : DeclaredFunction}
    (h : (Annotations.parse f.comment).get? "LuaStateTypes" = none)
    (pre post : List (Except DeclarationError Declaration)) :
    s.learnAll (pre ++ .ok (.function f) :: post) = s.learnAll (pre ++ post) := by
  induction pre generalizing s with
  | nil =>
    rw [List.nil_append, List.nil_append, learnAll, learn_of_unasked s h]
  | cons item rest ih =>
    cases item with
    | error e => rfl
    | ok d => exact ih (s.learn d)

theorem registerAll_append (s : Selection) (pre post : List (Except DeclarationError Declaration)) :
    s.registerAll (pre ++ post)
      = match s.registerAll pre with
        | (t, none) => t.registerAll post
        | failed => failed := by
  induction pre generalizing s with
  | nil => rfl
  | cons item rest ih =>
    cases item with
    | error e => rfl
    | ok d =>
      rw [List.cons_append, registerAll, registerAll]
      cases s.register d with
      | mk t cause =>
        cases cause with
        | some cause => rfl
        | none => exact ih t

/-- The second pass with the function and without it, from the state that learned the declarations. -/
theorem registerAll_without {hidden : List Place} {state : Option String} {quiet : Prop} (s : Selection)
    {pre : List (Except DeclarationError Declaration)} (post : List (Except DeclarationError Declaration))
    {f : DeclaredFunction}
    (hbeside : Beside hidden state quiet ((s.registerAll pre).1.register (.function f)).1 (s.registerAll pre).1)
    (hpasses : ((s.registerAll pre).1.register (.function f)).2 = none) :
    s.registerAll (pre ++ .ok (.function f) :: post) = s.registerAll (pre ++ post)
      ∨ (Beside hidden state quiet (s.registerAll (pre ++ .ok (.function f) :: post)).1
          (s.registerAll (pre ++ post)).1
        ∧ (s.registerAll (pre ++ .ok (.function f) :: post)).2 = (s.registerAll (pre ++ post)).2) := by
  rw [registerAll_append, registerAll_append]
  cases hpre : s.registerAll pre with
  | mk t stop =>
    rw [hpre] at hbeside hpasses
    cases stop with
    | some e => exact .inl rfl
    | none =>
      cases hregister : t.register (.function f) with
      | mk u cause =>
        rw [hregister] at hbeside hpasses
        obtain rfl : cause = none := hpasses
        refine .inr ?_
        simp only
        rw [registerAll, hregister]
        exact hbeside.registerAll post

/-! ### Whole runs -/

/-- The state in which the second pass meets a function that stands between other declarations. -/
def meeting (s : Selection) (pre post : List (Except DeclarationError Declaration)) (f : DeclaredFunction) :
    Selection :=
  ((s.learnAll (pre ++ .ok (.function f) :: post)).1.registerAll pre).1

/-- What a run has assembled before it drops anything. -/
def complete (s : Selection) (stream : List (Except DeclarationError Declaration)) : Selection :=
  ((s.learnAll stream).1.registerAll stream).1.assembled

/-- What a run has assembled comes about by registrations. -/
theorem changes_complete (patches : Patches) (headers : NameSet)
    (stream : List (Except DeclarationError Declaration)) :
    Changes { patches, headers } ((start { patches, headers }).complete stream).registry := by
  have hstart : Changes { patches, headers } (start { patches, headers }).registry := changes_includeAll _ _
  have hlearned := changes_learnAll (start { patches, headers }) stream
  have hregistered := changes_registerAll ((start { patches, headers }).learnAll stream).1 stream
  have hassembled := changes_assembled (((start { patches, headers }).learnAll stream).1.registerAll stream).1
  exact ((hstart.trans hlearned).trans hregistered).trans hassembled

theorem placed_complete (patches : Patches) (headers : NameSet)
    (stream : List (Except DeclarationError Declaration)) :
    ((start { patches, headers }).complete stream).registry.Placed :=
  ((Registry.Stocked.empty patches headers).changes (changes_complete patches headers stream)).placed

section Runs

variable {hidden : List Place} {state : Option String} {quiet : Prop}
variable {s : Selection} {pre post : List (Except DeclarationError Declaration)} {f : DeclaredFunction}

/-- The run with the function and the run without it: the function is not met, or both stop alike, or both
settle what they have assembled. -/
theorem runAll_without (hunasked : (Annotations.parse f.comment).get? "LuaStateTypes" = none)
    (hbeside : Beside hidden state quiet ((s.meeting pre post f).register (.function f)).1 (s.meeting pre post f))
    (hpasses : ((s.meeting pre post f).register (.function f)).2 = none) :
    s.runAll (pre ++ .ok (.function f) :: post) = s.runAll (pre ++ post)
      ∨ (∃ t t' e, s.runAll (pre ++ .ok (.function f) :: post) = (t, some e)
        ∧ s.runAll (pre ++ post) = (t', some e) ∧ Beside hidden state quiet t t')
      ∨ ((s.runAll (pre ++ .ok (.function f) :: post)).2 = none ∧ (s.runAll (pre ++ post)).2 = none
        ∧ (s.runAll (pre ++ .ok (.function f) :: post)).1.registry
          = (s.complete (pre ++ .ok (.function f) :: post)).settled
        ∧ (s.runAll (pre ++ post)).1.registry = (s.complete (pre ++ post)).settled
        ∧ Beside hidden state quiet (s.complete (pre ++ .ok (.function f) :: post)) (s.complete (pre ++ post))) := by
  rw [meeting, learnAll_without s hunasked] at hbeside hpasses
  rw [runAll, runAll, complete, complete, learnAll_without s hunasked]
  cases hlearned : s.learnAll (pre ++ post) with
  | mk learned stop =>
    rw [hlearned] at hbeside hpasses
    cases stop with
    | some e => exact .inl rfl
    | none =>
      simp only
      rcases registerAll_without learned post hbeside hpasses with hsame | ⟨hregistered, hstop⟩
      · exact .inl (by rw [hsame])
      · cases hwith : learned.registerAll (pre ++ .ok (.function f) :: post) with
        | mk t stop =>
          cases hwithout : learned.registerAll (pre ++ post) with
          | mk t' stop' =>
            rw [hwith, hwithout] at hregistered hstop
            obtain rfl : stop = stop' := hstop
            cases stop with
            | some e => exact .inr (.inl ⟨t, t', e, rfl, rfl, hregistered⟩)
            | none =>
              rcases hregistered.finish_cases with ⟨u, u', cause, hu, hu', hbased⟩ | ⟨u, u', hu, hu', hsettled⟩
              · simp only [hu, hu']
                exact .inr (.inl ⟨u, u', _, rfl, rfl, hbased⟩)
              · simp only [hu, hu']
                exact .inr (.inr ⟨trivial, trivial, hsettled.1, hsettled.2, hregistered.assembled.1⟩)

/-- The function is bound and dropped in the end; nothing else is ever bound at its places, its types leave no
trace and have their function types recorded, and something else is bound in its state. -/
structure DropsAlone (s : Selection) (pre post : List (Except DeclarationError Declaration))
    (f : DeclaredFunction) : Prop where
  ends : (s.runAll (pre ++ .ok (.function f) :: post)).2 = none
  dropped : (s.runAll (pre ++ .ok (.function f) :: post)).1.registry.Vacant
    ((s.meeting pre post f).places f)
  alone : (s.complete (pre ++ post)).registry.Vacant ((s.meeting pre post f).places f)
  quiet : (s.meeting pre post f).isQuiet f = true
  state : ∀ name, (s.meeting pre post f).stateOf? f = some name →
    (s.complete (pre ++ post)).states.contains name = true

/-- The two runs end alike, and agree off the hidden places. -/
theorem runAll_agree (hunasked : (Annotations.parse f.comment).get? "LuaStateTypes" = none)
    (hplaced : ∀ stream, (s.complete stream).registry.Placed)
    (hbeside : Beside hidden state quiet ((s.meeting pre post f).register (.function f)).1 (s.meeting pre post f))
    (hpasses : ((s.meeting pre post f).register (.function f)).2 = none) :
    (s.runAll (pre ++ .ok (.function f) :: post)).2 = (s.runAll (pre ++ post)).2
      ∧ ∀ p ∉ hidden, (s.runAll (pre ++ .ok (.function f) :: post)).1.registry.bound? p
        = (s.runAll (pre ++ post)).1.registry.bound? p := by
  rcases runAll_without hunasked hbeside hpasses with hsame | ⟨t, t', e, hstop, hstop', hstopped⟩ | hsettles
  · rw [hsame]
    exact ⟨rfl, fun _ _ => rfl⟩
  · rw [hstop, hstop']
    exact ⟨rfl, hstopped.bound⟩
  · obtain ⟨hend, hend', hsettled, hsettled', hcomplete⟩ := hsettles
    rw [hend, hend', hsettled, hsettled']
    exact ⟨rfl, fun p hp => hcomplete.bound?_settled (hplaced _) (hplaced _) hp⟩

/-- A function that is skipped leaves the registry of the run without it. -/
theorem runAll_eq_of_skips (hunasked : (Annotations.parse f.comment).get? "LuaStateTypes" = none)
    (hplaced : ∀ stream, (s.complete stream).registry.Placed)
    (hskips : (s.meeting pre post f).Skips f) :
    (s.runAll (pre ++ .ok (.function f) :: post)).1.registry = (s.runAll (pre ++ post)).1.registry := by
  obtain ⟨hbeside, hpasses⟩ := hskips.beside
  rcases runAll_without hunasked hbeside hpasses with hsame | ⟨t, t', e, hstop, hstop', hstopped⟩ | hsettles
  · rw [hsame]
  · rw [hstop, hstop']
    exact hstopped.registry_eq
  · obtain ⟨-, -, hsettled, hsettled', hcomplete⟩ := hsettles
    rw [hsettled, hsettled']
    exact hcomplete.settled_eq trivial (hplaced _) (hplaced _) nofun nofun nofun

/-- A function that is dropped alone leaves the registry of the run without it. -/
theorem runAll_eq_of_dropsAlone (hunasked : (Annotations.parse f.comment).get? "LuaStateTypes" = none)
    (hplaced : ∀ stream, (s.complete stream).registry.Placed)
    (hbound : (s.meeting pre post f).places f ≠ []) (hdrops : s.DropsAlone pre post f) :
    (s.runAll (pre ++ .ok (.function f) :: post)).1.registry = (s.runAll (pre ++ post)).1.registry := by
  rcases skips_or_beside hbound with hskips | ⟨hbeside, hpasses⟩
  · exact runAll_eq_of_skips hunasked hplaced hskips
  · rcases runAll_without hunasked hbeside hpasses with hsame | ⟨t, t', e, hstop, -, -⟩ | hsettles
    · rw [hsame]
    · have hends := hdrops.ends
      rw [hstop] at hends
      cases hends
    · obtain ⟨-, -, hsettled, hsettled', hcomplete⟩ := hsettles
      have hdropped := hdrops.dropped
      rw [hsettled] at hdropped ⊢
      rw [hsettled']
      exact hcomplete.settled_eq hdrops.quiet (hplaced _) (hplaced _) hdrops.alone hdropped hdrops.state

end Runs

end Selection

open Selection

/-- CORRECT: a function that asks for nothing but itself, and that is skipped or has places to be bound at, does not
change how a run ends or what it binds elsewhere. The registry is that of the run without the function, if the
function is skipped, or if it is dropped alone. -/
theorem skipped_function_isolated (patches : Patches) (headers : NameSet)
    (pre post : List (Except DeclarationError Declaration)) (f : DeclaredFunction)
    (hunasked : (Annotations.parse f.comment).get? "LuaStateTypes" = none)
    (hmet : ((start { patches, headers }).meeting pre post f).Skips f
      ∨ ((start { patches, headers }).meeting pre post f).places f ≠ []) :
    let s := start { patches, headers }
    let meeting := s.meeting pre post f
    let whole := s.runAll (pre ++ .ok (.function f) :: post)
    let rest := s.runAll (pre ++ post)
    whole.2 = rest.2
      ∧ (∀ p ∉ meeting.places f, whole.1.registry.bound? p = rest.1.registry.bound? p)
      ∧ (meeting.Skips f ∨ s.DropsAlone pre post f → whole.1.registry = rest.1.registry) := by
  intro s meeting whole rest
  have hplaced : ∀ stream, (s.complete stream).registry.Placed := placed_complete patches headers
  have hskipped : meeting.Skips f → whole.2 = rest.2 ∧ whole.1.registry = rest.1.registry := by
    intro hskips
    obtain ⟨hbeside, hpasses⟩ := hskips.beside
    exact ⟨(runAll_agree hunasked hplaced hbeside hpasses).1, runAll_eq_of_skips hunasked hplaced hskips⟩
  by_cases hskips : meeting.Skips f
  · obtain ⟨hend, hregistry⟩ := hskipped hskips
    exact ⟨hend, fun p _ => by rw [hregistry], fun _ => hregistry⟩
  · have hbound := hmet.resolve_left hskips
    obtain ⟨hbeside, hpasses⟩ := (skips_or_beside hbound).resolve_left hskips
    obtain ⟨hend, hagree⟩ := runAll_agree hunasked hplaced hbeside hpasses
    exact ⟨hend, hagree, fun h => runAll_eq_of_dropsAlone hunasked hplaced hbound (h.resolve_left hskips)⟩

/-- A free function of the header `spawn.hpp` that asks to be bound in the state `Main`. -/
def spawning (name : String) (params : List DeclaredParam) : DeclaredFunction where
  name
  scope := ""
  params
  returns := "void"
  isStatic := false
  comment := "CUSTOM_ATTRIBUTE[Lua(Main)]"
  owner := none
  isConstructor := false
  source := "spawn.hpp"

/-- `Spawn` takes a `Gone`. No class of this name is declared. -/
def spawnGone : DeclaredFunction := spawning "Spawn" [⟨"parent", "Gone*"⟩]

/-- `Spawn` takes a number. -/
def spawnCount : DeclaredFunction := spawning "Spawn" [⟨"count", "int"⟩]

/-- `Load` takes a number. -/
def loadSlot : DeclaredFunction := spawning "Load" [⟨"slot", "int"⟩]

theorem spawn_isolated_from_load :
    ((start {}).meeting [.ok (.function loadSlot)] [] spawnGone).places spawnGone = [.free "::Spawn"]
    ∧ (start {}).DropsAlone [.ok (.function loadSlot)] [] spawnGone
    ∧ ((start {}).runAll [.ok (.function loadSlot), .ok (.function spawnGone)]).1.registry
      = ((start {}).runAll [.ok (.function loadSlot)]).1.registry := by
  have hplaces : ((start {}).meeting [.ok (.function loadSlot)] [] spawnGone).places spawnGone
      = [.free "::Spawn"] := by
    decide +kernel
  have hdrops : (start {}).DropsAlone [.ok (.function loadSlot)] [] spawnGone := by
    refine ⟨by decide +kernel, ?_, ?_, by decide +kernel, ?_⟩
    · rw [hplaces]
      decide +kernel
    · rw [hplaces]
      decide +kernel
    · have hstate : ((start {}).meeting [.ok (.function loadSlot)] [] spawnGone).stateOf? spawnGone
          = some "Main" := by
        decide +kernel
      rw [hstate]
      decide +kernel
  have hmet := Or.inr (a := ((start {}).meeting [.ok (.function loadSlot)] [] spawnGone).Skips spawnGone)
    (hplaces.trans_ne (List.cons_ne_nil _ _))
  exact ⟨hplaces, hdrops,
    (skipped_function_isolated {} ∅ [.ok (.function loadSlot)] [] spawnGone (by decide +kernel) hmet).2.2
      (.inr hdrops)⟩

/-- Next to `Spawn` of a number, `Spawn` of a `Gone` is dropped together with it. -/
theorem spawn_dropped_with_overload :
    (Annotations.parse spawnGone.comment).get? "LuaStateTypes" = none
    ∧ ((start {}).runAll [.ok (.function spawnCount), .ok (.function spawnGone)]).2 = none
    ∧ ((start {}).runAll [.ok (.function spawnCount)]).2 = none
    ∧ ((start {}).runAll [.ok (.function spawnCount), .ok (.function spawnGone)]).1.skipped = 1
    ∧ ((start {}).runAll [.ok (.function spawnCount), .ok (.function spawnGone)]).1.registry.functions.keys = []
    ∧ ((start {}).runAll [.ok (.function spawnCount)]).1.registry.functions.keys = ["::Spawn"] := by
  decide +kernel

end LuaGlue
