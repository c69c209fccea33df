import LuaGlue.Proofs.Attachment.Members

/-!
Native wrappers that are attached to their classes.

At the end of a run every attachment that waits is looked up: its class must be one that was exposed, and a
metamethod must be one that Lua knows. Then its `target?` is a place of this class, and the wrapper is put there
whatever is there already. So what is bound at a place in the end stands for one of the attachments with this
target, and where no attachment has its target everything stays (`attached_assembled`). The survey goes past
functions with a native wrapper (`bound?_settled_iff`).

    waiting      w → C.__add     v → D.f (D is thin)
    target?      C.__add         none
    assembled    C.__add ↦ w     D as it was
-/

namespace LuaGlue

open Selection

/-- Does a function stand for the wrapper of an attachment? -/
def Attachment.IsServedBy (a : Attachment) (f : BoundFunction) : Prop :=
  f.wrapperName = some a.wrapper ∧ f.isRedirector = true

namespace Registry

theorem Placed.of_bare_eq {r r' : Registry} (h : r.Placed) (hbare : r'.bare = r.bare) : r'.Placed := by
  intro id c hc
  rcases class?_of_bare_eq hbare id with ⟨hnone, -⟩ | ⟨d, d', hd, hd', hframe⟩
  · cases hc.symm.trans hnone
  · obtain rfl : c = d := Option.some.inj (hc.symm.trans hd)
    rw [BoundClass.id_of_frame_eq hframe]
    exact h id d' hd'

theorem bare_put (r : Registry) (p : Place) (f : BoundFunction) : (r.put p f).bare = r.bare :=
  congrArg classes (frame_put r p f)

end Registry

namespace Selection

open Registry

/-- Where an attachment goes, if it goes anywhere. -/
def target? (s : Selection) (a : Attachment) : Option Place :=
  if a.isMetamethod && !metamethodNames.contains a.name then none
  else (s.exposedClass? a.className).map fun c => .member c.id a.kind a.name

/-- What attaching wrappers does to the state. -/
structure Attached (l : List Attachment) (s t : Selection) : Prop where
  bare : t.registry.bare = s.registry.bare
  exposed : t.exposed = s.exposed
  reached : ∀ p, (∃ a ∈ l, s.target? a = some p) →
    ∃ a ∈ l, s.target? a = some p ∧ ∃ f, t.registry.bound? p = some f ∧ a.IsServedBy f
  kept : ∀ p, (∀ a ∈ l, s.target? a ≠ some p) → t.registry.bound? p = s.registry.bound? p

section Attached

variable {s t u : Selection} {l l' : List Attachment} {a : Attachment}

theorem target?_congr (hbare : t.registry.bare = s.registry.bare) (hexposed : t.exposed = s.exposed) (a : Attachment) :
    t.target? a = s.target? a := by
  rw [target?, target?, exposedClass?, exposedClass?, hexposed]
  split
  · rfl
  · cases Scope.splitQualified a.className with
    | mk scope name =>
      simp only
      rcases find?_of_bare_eq hbare scope name with ⟨ht, hs⟩ | ⟨c, d, ht, hs, hframe⟩
      · rw [ht, hs]
      · rw [ht, hs, Option.filter_some, Option.filter_some, BoundClass.id_of_frame_eq hframe]
        split
        · exact congrArg (fun id => some (Place.member id a.kind a.name)) (BoundClass.id_of_frame_eq hframe)
        · rfl

theorem target?_eq_some_iff {id : ClassId} {kind : MemberKind} {name : String} :
    s.target? a = some (.member id kind name)
      ↔ (∃ c, s.exposedClass? a.className = some c ∧ c.id = id) ∧ a.kind = kind ∧ a.name = name
        ∧ (a.isMetamethod = true → a.name ∈ metamethodNames) := by
  rw [target?]
  split
  · next hunknown =>
    rw [Bool.and_eq_true, Bool.not_eq_true', List.contains_eq_mem, decide_eq_false_iff_not] at hunknown
    refine ⟨nofun, ?_⟩
    rintro ⟨-, -, -, hknown⟩
    exact absurd (hknown hunknown.1) hunknown.2
  · next hknown =>
    rw [Bool.and_eq_true, Bool.not_eq_true', List.contains_eq_mem, decide_eq_false_iff_not, not_and, not_not] at hknown
    rw [Option.map_eq_some_iff]
    constructor
    · rintro ⟨c, hc, heq⟩
      cases heq
      exact ⟨⟨c, hc, rfl⟩, rfl, rfl, hknown⟩
    · rintro ⟨⟨c, hc, rfl⟩, rfl, rfl, -⟩
      exact ⟨c, hc, rfl⟩

theorem hosts_of_exposedClass? (h : s.registry.Placed) {className : String} {c : BoundClass}
    (hc : s.exposedClass? className = some c) (kind : MemberKind) (name : String) :
    s.registry.hosts (.member c.id kind name) = true := by
  have hmem := mem_of_find? (Option.filter_eq_some_iff.1 hc).1
  rw [hosts, class?, h.getElem? hmem]
  rfl

theorem Attached.nil (s : Selection) : Attached [] s s := ⟨rfl, rfl, (by simp), fun _ _ => rfl⟩

theorem Attached.trans (h : Attached l s t) (h' : Attached l' t u) : Attached (l ++ l') s u := by
  have htarget := target?_congr h.bare h.exposed
  refine ⟨h'.bare.trans h.bare, h'.exposed.trans h.exposed, fun p hp => ?_, fun p hp => ?_⟩
  · by_cases hlater : ∃ a ∈ l', s.target? a = some p
    · obtain ⟨a, ha, hat, f, hf, hserved⟩ := h'.reached p (by simpa only [htarget] using hlater)
      exact ⟨a, List.mem_append_right _ ha, htarget a ▸ hat, f, hf, hserved⟩
    · push Not at hlater
      have hkept := h'.kept p (by simpa only [htarget] using hlater)
      obtain ⟨a, ha, hat⟩ := hp
      rcases List.mem_append.1 ha with hfirst | hrest
      · obtain ⟨b, hb, hbt, f, hf, hserved⟩ := h.reached p ⟨a, hfirst, hat⟩
        exact ⟨b, List.mem_append_left _ hb, hbt, f, hkept.trans hf, hserved⟩
      · exact absurd hat (hlater a hrest)
  · have hfirst := h.kept p fun a ha => hp a (List.mem_append_left _ ha)
    refine (h'.kept p fun a ha => ?_).trans hfirst
    rw [htarget]
    exact hp a (List.mem_append_right _ ha)

/-! ### One wrapper -/

/-- A wrapper without a target changes nothing but the notices. -/
theorem attached_note (h : s.target? a = none) (n : Notice) : Attached [a] s (s.note n) := by
  refine ⟨rfl, rfl, fun p hp => ?_, fun _ _ => rfl⟩
  obtain ⟨b, hb, hbt⟩ := hp
  rw [List.mem_singleton.1 hb, h] at hbt
  cases hbt

/-- A wrapper is put at its target. -/
theorem attached_put {p : Place} (h : s.target? a = some p) (hhosts : s.registry.hosts p = true) {f : BoundFunction}
    (hf : a.IsServedBy f) : Attached [a] s (s.withRegistry (s.registry.put p f)) := by
  refine ⟨bare_put s.registry p f, rfl, fun q hq => ?_, fun q hq => ?_⟩
  · obtain ⟨b, hb, hbt⟩ := hq
    obtain rfl := List.mem_singleton.1 hb
    obtain rfl : p = q := Option.some.inj (h.symm.trans hbt)
    exact ⟨b, hb, hbt, f, bound?_put_self s.registry hhosts f, hf⟩
  · refine bound?_put_of_ne s.registry (fun heq => ?_) f
    exact hq a List.mem_cons_self (heq ▸ h)

theorem attached_redirector (hplaced : s.registry.Placed) (p : Pending RedirectorRequest) :
    Attached [p.request.attachment p.wrapper] s (s.attachRedirector p) := by
  have htarget : s.target? (p.request.attachment p.wrapper) = (s.exposedClass? p.request.className).map
      fun c => .member c.id (redirectedKind p.request.isStatic) p.request.function := by
    rw [target?, RedirectorRequest.isMetamethod_attachment]
    rfl
  rw [attachRedirector]
  simp only
  split
  · next hnone =>
    rw [hnone] at htarget
    exact attached_note htarget _
  · next c hc =>
    rw [hc] at htarget
    exact attached_put htarget (hosts_of_exposedClass? hplaced hc _ _) ⟨rfl, rfl⟩

theorem attached_metamethod (hplaced : s.registry.Placed) (p : Pending MetamethodRequest) :
    Attached [p.request.attachment p.wrapper] s (s.attachMetamethod p) := by
  have htarget : s.target? (p.request.attachment p.wrapper)
      = if !metamethodNames.contains p.request.metamethod then none
        else (s.exposedClass? p.request.className).map fun c => .member c.id .metamethod p.request.metamethod := rfl
  rw [attachMetamethod]
  simp only
  split
  · next hunknown =>
    rw [if_pos hunknown] at htarget
    exact attached_note htarget _
  · next hknown =>
    rw [if_neg hknown] at htarget
    split
    · next hnone =>
      rw [hnone] at htarget
      exact attached_note htarget _
    · next c hc =>
      rw [hc] at htarget
      have hput := attached_put htarget (hosts_of_exposedClass? hplaced hc _ _)
        (f := wrappedMember c p.request.metamethod p.wrapper p.source) ⟨rfl, rfl⟩
      split
      · exact hput
      · -- one more header is no concern of classes and members
        refine ⟨hput.bare, hput.exposed, fun q hq => ?_, fun q hq => ?_⟩
        · obtain ⟨b, hb, hbt, f, hf, hserved⟩ := hput.reached q hq
          refine ⟨b, hb, hbt, f, ?_, hserved⟩
          cases q <;> exact hf
        · have hkept := hput.kept q hq
          cases q <;> exact hkept

/-! ### All wrappers -/

theorem attached_foldl {α : Type} {step : Selection → α → Selection} {of : α → Attachment}
    (hstep : ∀ {s} a, s.registry.Placed → Attached [of a] s (step s a)) (hplaced : s.registry.Placed) (l : List α) :
    Attached (l.map of) s (l.foldl step s) := by
  induction l generalizing s with
  | nil => exact .nil s
  | cons a rest ih =>
    have hfirst := hstep a hplaced
    exact hfirst.trans (ih (hplaced.of_bare_eq hfirst.bare))

/-- At the end every attachment that waits is attached to its class. -/
theorem attached_assembled (h : (s.addRequestedBases s.requests.bases).1.registry.Placed) :
    Attached s.waiting (s.addRequestedBases s.requests.bases).1 s.assembled := by
  have hbases := aside_addRequestedBases s s.requests.bases
  have hwaiting := waiting_of_aside hbases
  rw [assembled, ← hwaiting]
  generalize (s.addRequestedBases s.requests.bases).1 = t at h
  have hredirectors := attached_foldl (fun p hplaced => attached_redirector hplaced p) h t.redirectors
  have haside := aside_foldl aside_attachRedirector t t.redirectors
  have hmetamethods := attached_foldl (fun p hplaced => attached_metamethod hplaced p)
    (h.of_bare_eq hredirectors.bare) (t.redirectors.foldl attachRedirector t).metamethods
  rw [waiting, ← haside.metamethods]
  exact hredirectors.trans hmetamethods

end Attached

end Selection

/-! ### At the end -/

namespace Registry

/-- An exposed class that is found was there before a thin one was added. -/
theorem find?_of_addThinClass {r : Registry} {name scope source other otherScope : String} {c : BoundClass}
    (h : (r.addThinClass name scope source).1.find? otherScope other = some c) (hexposed : c.isExposed = true) :
    r.find? otherScope other = some c := by
  unfold addThinClass at h
  split at h
  · rw [find?, appendClass, List.find?_append, Option.or_eq_some_iff] at h
    rcases h with hold | ⟨-, hnew⟩
    · exact hold
    · rw [List.mem_singleton.1 (List.mem_of_find?_eq_some hnew)] at hexposed
      cases hexposed
  · exact h

theorem Placed.prune {r : Registry} (h : r.Placed) (found : Survey) : (Selection.prune r found).Placed :=
  h.of_bare_eq (congrArg classes (frame_prune r found))

end Registry

namespace Selection

open Registry

/-- An exposed class that is found in the end was there before, with the members that are left of it and others. -/
theorem find?_of_settled {s : Selection} {scope name : String} {c : BoundClass}
    (h : s.settled.find? scope name = some c) (hexposed : c.isExposed = true) :
    ∃ d, s.registry.find? scope name = some d ∧ c.frame = d.frame := by
  have hpruned : (prune s.registry (survey s.registry)).find? scope name = some c := by
    refine keeps_dropUnresolved
      (P := fun r => r.find? scope name = some c → (prune s.registry (survey s.registry)).find? scope name = some c)
      s ?_ (fun _ _ hr => hr) id h
    exact fun r thin thinScope hr hfound => hr (find?_of_addThinClass hfound hexposed)
  rcases find?_of_frame_eq (frame_prune s.registry (survey s.registry)) scope name with ⟨hnone, -⟩ | ⟨d, e, hd, he, hframe⟩
  · cases hpruned.symm.trans hnone
  · obtain rfl : c = d := Option.some.inj (hpruned.symm.trans hd)
    exact ⟨e, he, hframe⟩

theorem placed_settled {s : Selection} (h : s.registry.Placed) : s.settled.Placed :=
  keeps_dropUnresolved (P := Placed) s (fun _ name scope hr => hr.addThinClass name scope "") (fun _ _ hr => hr)
    (h.prune _)

/-- What a native wrapper stands for is never dropped. -/
theorem bound?_settled_of_wrapped {s : Selection} (h : s.registry.Placed) {p : Place} {f : BoundFunction}
    (hwrapper : f.wrapperName.isSome = true) : s.settled.bound? p = some f ↔ s.registry.bound? p = some f := by
  rw [bound?_settled_iff s h]
  refine and_iff_left fun hdropped => ?_
  have hmisses := hdropped.2
  rw [misses, Bool.and_eq_true, Option.isNone_iff_eq_none] at hmisses
  rw [hmisses.1] at hwrapper
  cases hwrapper

end Selection

end LuaGlue
