import LuaGlue.Proofs.Attachment.Attached
import LuaGlue.Proofs.Functions.Ledger

/-!
What declarations propose for a place.

Members and free functions are bound in the same way: whatever comes first makes the function, and each later
declaration adds its overload unless that is covered. A `Proposal` is what one declaration brings to one place, an
overload and the result that was read with it. The second pass takes the proposals for a place in their order, and
whatever each of them keeps holds of what is bound there in the end (`Settles.registerAll`). So that has the accepted
overloads and the result of the first one:

    proposals for `::Get`    int Get(int)    int Get(long)    bool Get(bool)
    accepted                 int Get(int)      covered        bool Get(bool)
    bound                    int  {Get(int), Get(bool)}

Native wrappers that are attached later leave what they do not replace (`bound?_of_assembled`).
-/

namespace LuaGlue

open Registry Selection

/-- An overload that is proposed for a place, with the result of its declaration. -/
structure Proposal where
  declared : DeclaredFunction
  overload : Overload
  result : CxxType

namespace Proposal

/-- Do proposals that have been accepted cover another one? -/
def isCovered (kept : List Proposal) (proposal : Proposal) : Bool :=
  (proposal.overload.isEmpty && !kept.isEmpty) || kept.any (·.overload.equivalent proposal.overload)

/-- A proposal, unless it is covered. -/
def accept? (kept : List Proposal) (proposal : Proposal) : Option Proposal :=
  if proposal.isCovered kept then none else some proposal

/-- The accepted ones of proposals, in order. -/
def accepted (proposals : List Proposal) : List Proposal := keepAll accept? proposals

theorem accepted_concat (proposals : List Proposal) (proposal : Proposal) :
    accepted (proposals ++ [proposal]) = accepted proposals ++ (accept? (accepted proposals) proposal).toList :=
  keepAll_concat proposals proposal

/-- An accepted proposal is one that those before it do not cover. -/
theorem mem_accepted_iff {proposals : List Proposal} {c : Proposal} : c ∈ accepted proposals
    ↔ ∃ before after, proposals = before ++ c :: after ∧ c.isCovered (accepted before) = false := by
  rw [accepted, mem_keepAll_iff]
  constructor
  · rintro ⟨before, proposal, after, hsplit, haccepted⟩
    rw [accept?, Option.ite_none_left_eq_some, Option.some.injEq] at haccepted
    obtain ⟨hnew, rfl⟩ := haccepted
    exact ⟨before, after, hsplit, by simpa [accepted] using hnew⟩
  · rintro ⟨before, after, hsplit, hnew⟩
    refine ⟨before, c, after, hsplit, ?_⟩
    rw [accept?, Option.ite_none_left_eq_some]
    exact ⟨by simpa [accepted] using hnew, rfl⟩

theorem mem_of_mem_accepted {proposals : List Proposal} {c : Proposal} (h : c ∈ accepted proposals) : c ∈ proposals := by
  obtain ⟨before, after, rfl, -⟩ := mem_accepted_iff.1 h
  exact List.mem_append_right _ List.mem_cons_self

end Proposal

/-! ### What a place holds -/

/-- A function as a proposal makes it where nothing is bound, but for the overload. -/
structure Proposal.Starts (proposal : Proposal) (fresh : BoundFunction) : Prop where
  overloads : fresh.overloads = []
  result : fresh.result = proposal.result
  isConstructor : fresh.isConstructor = (proposal.declared.isConstructor && proposal.declared.owner.isSome)

/-- A function that is made takes the overload. -/
theorem Proposal.Starts.extendWith_none {proposal : Proposal} {fresh : BoundFunction} (h : proposal.Starts fresh) :
    Selection.extendWith fresh proposal.overload none = some { fresh with overloads := [proposal.overload] } := by
  simp [Selection.extendWith, BoundFunction.addOverload, BoundFunction.covers, h.overloads, Except.toOption]

/-- A function as a native wrapper makes it, whose types are not read. -/
structure BoundFunction.IsNative (f : BoundFunction) : Prop where
  wrapper : f.wrapperName ≠ none
  overloads : f.overloads = []
  result : f.result = .plainVoid

/-- A statement about what is bound at a place after proposals for it, which each proposal and each native wrapper
keeps. -/
structure Selection.Settles (P : List Proposal → Option BoundFunction → Prop) : Prop where
  propose : ∀ {before old} (proposal : Proposal) {fresh}, proposal.Starts fresh → P before old →
    P (before ++ [proposal]) ((Selection.extendWith fresh proposal.overload old).or old)
  standIn : ∀ {before old} {g : BoundFunction}, g.IsNative → P before old →
    P before ((Selection.standInFor g old).or old)

/-- What is bound at a place holds what has been accepted, unless a native wrapper stands there. -/
structure Holds (kept : List Proposal) (old : Option BoundFunction) : Prop where
  vacant : old = none → kept = []
  taken : ∀ f, old = some f → f.wrapperName = none →
    f.overloads = kept.map (·.overload) ∧ ∃ first ∈ kept.head?, first.result = f.result

namespace Holds

variable {kept : List Proposal} {old : Option BoundFunction}

/-- One more overload is added if the proposal of it is accepted. -/
theorem extendWith (h : Holds kept old) (proposal : Proposal) {fresh : BoundFunction} (hfresh : proposal.Starts fresh) :
    Holds (kept ++ (proposal.accept? kept).toList) ((extendWith fresh proposal.overload old).or old) := by
  cases old with
  | none =>
    obtain rfl := h.vacant rfl
    rw [hfresh.extendWith_none]
    refine ⟨fun hnone => absurd hnone (Option.some_ne_none _), fun f hf _ => ?_⟩
    cases hf
    simp [Proposal.accept?, Proposal.isCovered, hfresh.result]
  | some g =>
    rw [extendWith_or_some]
    refine ⟨fun hnone => absurd hnone (Option.some_ne_none _), fun f hf hdirect => ?_⟩
    obtain rfl := Option.some.inj hf
    -- an overload that is added leaves the wrapper
    have hwrapper : g.wrapperName = none := by
      split at hdirect <;> exact hdirect
    obtain ⟨hoverloads, first, hhead, hfirst⟩ := h.taken g rfl hwrapper
    have hcovers : g.covers proposal.overload = proposal.isCovered kept := by
      simp [BoundFunction.covers, Proposal.isCovered, hoverloads, List.any_map, Function.comp_def]
    rw [hcovers, Proposal.accept?]
    cases proposal.isCovered kept with
    | true => simpa using ⟨hoverloads, first, hhead, hfirst⟩
    | false =>
      refine ⟨by simp [hoverloads], first, ?_, hfirst⟩
      simp only [Bool.false_eq_true, ↓reduceIte, Option.toList_some]
      rw [List.head?_append_of_ne_nil _ (List.ne_nil_of_mem (List.mem_of_head? hhead))]
      exact hhead

/-- A native wrapper takes the place if nothing is there. -/
theorem standInFor (h : Holds kept old) {g : BoundFunction} (hwrapper : g.wrapperName ≠ none) :
    Holds kept ((standInFor g old).or old) := by
  cases old with
  | none =>
    refine ⟨fun hnone => absurd hnone (Option.some_ne_none g), fun f hf hdirect => ?_⟩
    cases hf
    exact absurd hdirect hwrapper
  | some f => exact h

/-- After proposals a place holds those that are accepted. -/
theorem settles : Selection.Settles fun proposals => Holds (Proposal.accepted proposals) where
  propose proposal _ hfresh h := by
    rw [Proposal.accepted_concat]
    exact h.extendWith proposal hfresh
  standIn hnative h := h.standInFor hnative.wrapper

end Holds

/-! ### Declarations -/

/-- What an offer to a free function proposes. -/
def Offer.proposal? (offer : Offer) : Option Proposal :=
  offer.types?.map fun types => ⟨offer.declared, types.1, types.2⟩

namespace Selection

/-- What a declaration proposes for a place. -/
def proposals (s : Selection) : Place → Declaration → List Proposal
  | .free key, d => ((s.offers d).filter fun o => o.key == key).filterMap Offer.proposal?
  | .member id kind name, .function f =>
    match s.signature f with
    | .ok (overload, result) =>
      if .member id kind name ∈ s.places f ∧ s.registry.hosts (.member id kind name) = true then
        [⟨f, overload, result⟩]
      else []
    | .error _ => []
  | .member _ _ _, _ => []

/-- What declarations propose for a place, in order, if the state is this one before the first of them. -/
def proposalsOf (p : Place) (s : Selection) : List (Except DeclarationError Declaration) → List Proposal
  | [] => []
  | .error _ :: _ => []
  | .ok d :: rest => s.proposals p d ++ proposalsOf p (s.register d).1 rest

section Proposals

variable {s : Selection} {p : Place} {before : List Proposal} {P : List Proposal → Option BoundFunction → Prop}

/-- A proposal is the signature of the function that is declared. -/
theorem mem_proposals {d : Declaration} {c : Proposal} (h : c ∈ s.proposals p d) :
    d = .function c.declared ∧ s.signature c.declared = .ok (c.overload, c.result) := by
  cases p with
  | free key =>
    obtain ⟨offer, hoffer, hc⟩ := List.mem_filterMap.1 h
    obtain ⟨types, htypes, rfl⟩ := Option.map_eq_some_iff.1 hc
    obtain ⟨hd, -, -, hsource⟩ := mem_offers_iff.1 (List.mem_of_mem_filter hoffer)
    rw [htypes] at hsource
    exact ⟨hd, hsource.2.2⟩
  | member id kind name =>
    cases d with
    | function f =>
      rw [proposals] at h
      split at h
      · next overload result hsignature =>
        split at h
        · obtain rfl := List.mem_singleton.1 h
          exact ⟨rfl, hsignature⟩
        · cases h
      · cases h
    | _ => cases h

theorem mem_proposalsOf {stream : List (Except DeclarationError Declaration)} {c : Proposal}
    (h : c ∈ s.proposalsOf p stream) :
    .ok (.function c.declared) ∈ stream ∧ s.signature c.declared = .ok (c.overload, c.result) := by
  induction stream generalizing s with
  | nil => cases h
  | cons item rest ih =>
    cases item with
    | error e => cases h
    | ok d =>
      rcases List.mem_append.1 h with hc | hc
      · obtain ⟨rfl, hsignature⟩ := mem_proposals hc
        exact ⟨List.mem_cons_self, hsignature⟩
      · obtain ⟨hmem, hsignature⟩ := ih hc
        rw [(learned_register s d).signature] at hsignature
        exact ⟨List.mem_cons_of_mem _ hmem, hsignature⟩

/-! ### Free functions -/

theorem Settles.settleAll (hP : Settles P) {old : Option BoundFunction} (h : P before old) (key : String)
    {offers : List Offer} (hfree : ∀ offer ∈ offers, offer.declared.owner = none) :
    P (before ++ (offers.filter fun o => o.key == key).filterMap Offer.proposal?) (Offer.settleAll key offers old) := by
  rw [Offer.settleAll]
  replace hfree : ∀ offer ∈ offers.filter fun o => o.key == key, offer.declared.owner = none :=
    fun offer hoffer => hfree offer (List.mem_of_mem_filter hoffer)
  generalize (offers.filter fun o => o.key == key) = l at hfree ⊢
  induction l generalizing before old with
  | nil => simpa using h
  | cons offer rest ih =>
    obtain ⟨howner, hrest⟩ := List.forall_mem_cons.1 hfree
    rw [List.foldl_cons, List.filterMap_cons, Offer.proposal?, Offer.settle, Offer.update]
    cases htypes : offer.types? with
    | none =>
      have hfresh : offer.fresh.IsNative := by
        rw [Offer.fresh, htypes]
        exact ⟨Option.some_ne_none _, rfl, rfl⟩
      exact ih (hP.standIn hfresh h) hrest
    | some types =>
      have hfresh : (⟨offer.declared, types.1, types.2⟩ : Proposal).Starts offer.fresh := by
        rw [Offer.fresh, htypes]
        exact ⟨rfl, rfl, by simp [howner, newFunction, BoundFunction.new]⟩
      have hnext := ih (hP.propose _ hfresh h) hrest
      rw [List.append_assoc] at hnext
      exact hnext

/-! ### Classes and enums -/

theorem bound?_placeClass (s : Selection) (c : DeclaredClass) (p : Place) :
    (s.placeClass c).1.registry.bound? p = s.registry.bound? p := by
  rw [placeClass]
  simp only
  split
  · exact (framed_addThinClass c.name c.scope c.source).bound s.registry p
  · next state luaScope _ =>
    have hadd := (framed_addClass c.name c.scope c.source state).bound s.registry p
    split
    · rfl
    · next registry id hok =>
      simp only [hok] at hadd
      exact ((framed_describe id c luaScope).bound registry p).trans hadd

theorem bound?_registerClass (s : Selection) (c : DeclaredClass) (p : Place) :
    (s.registerClass c).1.registry.bound? p = s.registry.bound? p := by
  have hplaced := bound?_placeClass s c p
  rw [registerClass]
  split
  · next t heq =>
    rw [heq] at hplaced
    exact hplaced
  · next t id heq =>
    rw [heq] at hplaced
    have hbases := (framed_addBasesNamed id c.bases).bound t.registry p
    split
    · next registry abort hadd =>
      rw [hadd] at hbases
      exact hbases.trans hplaced
    · next registry hadd =>
      rw [hadd] at hbases
      exact ((framed_nestClass c.scope id).bound registry p).trans (hbases.trans hplaced)

theorem bound?_registerEnum (s : Selection) (e : DeclaredEnum) (p : Place) :
    (s.registerEnum e).registry.bound? p = s.registry.bound? p := by
  rw [registerEnum]
  split
  · rfl
  · next state scope _ =>
    have hadd := (framed_addEnum { name := e.name, scope, state, values := e.values }).bound s.registry p
    split
    · next registry hok =>
      rw [hok] at hadd
      exact hadd
    · rfl

/-! ### Members -/

theorem bound?_fill_self {r : Registry} {update : Option BoundFunction → Option BoundFunction}
    (hhosts : r.hosts p = true) : (r.fill p update).bound? p = (update (r.bound? p)).or (r.bound? p) := by
  cases hupdate : update (r.bound? p) with
  | none => rw [fill_of_eq_none hupdate, Option.none_or]
  | some f => rw [fill_of_eq_some hupdate, bound?_put_self r hhosts, Option.some_or]

theorem bound?_registerMember_of_none {f : DeclaredFunction} (h : s.memberOf? f = none) (p : Place) :
    (s.registerMember f).registry.bound? p = s.registry.bound? p := by
  rw [registerMember]
  split
  · rfl
  · next id hcurrent =>
    rw [memberOf?, hcurrent, Option.filter_some] at h
    split
    · exact (framed_makeDefault id).bound s.registry p
    · split
      · rfl
      · split
        · rfl
        · next hconstructor hoperator hredirected =>
          simp [hconstructor, hoperator, hredirected] at h

theorem places_of_owner {f : DeclaredFunction} (howner : f.owner.isSome = true) :
    s.places f = (s.memberOf? f).toList.map fun id => .member id (kindOf f) f.name := by
  rw [places, if_pos howner]

/-- A member is proposed for its place in the class that it is added to. -/
theorem Settles.registerMember (hP : Settles P) {f : DeclaredFunction} (howner : f.owner.isSome = true) {id : ClassId}
    {kind : MemberKind} {name : String} (h : P before (s.registry.bound? (.member id kind name))) :
    P (before ++ s.proposals (.member id kind name) (.function f))
      ((s.registerMember f).registry.bound? (.member id kind name)) := by
  rw [proposals, places_of_owner howner]
  cases hmember : s.memberOf? f with
  | none =>
    rw [bound?_registerMember_of_none hmember]
    cases s.signature f <;> simpa using h
  | some own =>
    rw [registerMember_of_memberOf? hmember, withSignature]
    cases hsignature : s.signature f with
    | error reason =>
      rw [List.append_nil]
      exact h
    | ok types =>
      obtain ⟨overload, result⟩ := types
      by_cases hplace : Place.member id kind name = .member own (kindOf f) f.name
      · obtain ⟨rfl, rfl, rfl⟩ := Place.member.inj hplace
        cases hc : s.registry.class? id with
        | none => simpa [addMember, hc, hosts] using h
        | some c =>
          have hhosts : s.registry.hosts (.member id (kindOf f) f.name) = true := by simp [hosts, hc]
          have hbound := (addMember_spec s hc f overload result).1.registry.bound?_eq
            (.member id (kindOf f) f.name)
          have hfresh : (⟨f, overload, result⟩ : Proposal).Starts (newMember c f result) :=
            ⟨rfl, rfl, by simp [howner, newMember]⟩
          have hstep := hP.propose _ hfresh h
          rw [← bound?_fill_self hhosts] at hstep
          simp only [Option.toList_some, List.map_cons, List.map_nil, List.mem_singleton, hhosts, and_self, if_true]
          exact hbound.symm ▸ hstep
      · have hsame : (s.addMember own f overload result).registry.bound? (.member id kind name)
            = s.registry.bound? (.member id kind name) := by
          cases hc : s.registry.class? own with
          | none => rw [addMember, hc]
          | some c =>
            exact ((addMember_spec s hc f overload result).1.registry.bound?_eq _).trans
              (bound?_fill_of_ne s.registry hplace _)
        simpa [hplace, hsame] using h

/-! ### All declarations -/

/-- What a declaration proposes for a place is what it does to it. -/
theorem Settles.register (hP : Settles P) (h : P before (s.registry.bound? p)) (d : Declaration) :
    P (before ++ s.proposals p d) ((s.register d).1.registry.bound? p) := by
  cases p with
  | free key =>
    have hbound := functions_register s d key
    rw [bound?, hbound]
    exact hP.settleAll h key fun offer hoffer => (mem_offers_iff.1 hoffer).2.1
  | member id kind name =>
    cases d with
    | remark comment => simpa [proposals, Selection.register] using h
    | record c => simpa [proposals, Selection.register, bound?_registerClass] using h
    | enum e => simpa [proposals, Selection.register, bound?_registerEnum] using h
    | function f =>
      rw [Selection.register]
      by_cases howner : f.owner.isSome = true
      · simp only
        rw [if_pos howner]
        exact hP.registerMember howner h
      · obtain ⟨functions, signatures, redirectors, metamethods, states, skipped, notices, heq⟩ :=
          registerFunction_rest s f
        have hnone : s.proposals (.member id kind name) (.function f) = [] := by
          rw [proposals, places, if_neg howner]
          cases s.signature f <;> simp
        simp only
        rw [if_neg howner, hnone, List.append_nil, heq]
        exact h

/-- The second pass takes what is proposed for a place, in order. -/
theorem Settles.registerAll (hP : Settles P) {stream : List (Except DeclarationError Declaration)}
    (h : P before (s.registry.bound? p)) (hends : (s.registerAll stream).2 = none) :
    P (before ++ s.proposalsOf p stream) ((s.registerAll stream).1.registry.bound? p) := by
  induction stream generalizing s before with
  | nil => simpa [proposalsOf, Selection.registerAll] using h
  | cons item rest ih =>
    cases item with
    | error e => cases hends
    | ok d =>
      have hfirst := hP.register h d
      rw [Selection.registerAll] at hends ⊢
      rw [proposalsOf, ← List.append_assoc]
      split at hends
      · next t heq =>
        rw [heq] at hfirst ⊢
        exact ih hfirst hends
      · cases hends

/-! ### The end -/

theorem bound?_addRequestedBases (s : Selection) (bases : List (String × String)) (p : Place) :
    (s.addRequestedBases bases).1.registry.bound? p = s.registry.bound? p := by
  refine addRequestedBases_induction (P := fun t => t.registry.bound? p = s.registry.bound? p)
    (fun t derived base h => ?_) rfl bases
  rw [addRequestedBase]
  simp only
  split
  · exact h
  · exact ((framed_addBaseNamed _ base).bound t.registry p).trans h

/-- What stands for no native wrapper in the end is what declarations have bound. -/
theorem bound?_of_assembled (h : s.registry.Stocked) {f : BoundFunction}
    (hf : s.assembled.registry.bound? p = some f) (hwrapper : f.wrapperName = none) :
    s.registry.bound? p = some f := by
  have hattached := attached_assembled (h.changes (changes_addRequestedBases s s.requests.bases)).placed
  have htarget : ∀ a ∈ s.waiting, (s.addRequestedBases s.requests.bases).1.target? a ≠ some p := by
    intro a ha heq
    obtain ⟨b, -, -, g, hg, hserved⟩ := hattached.reached p ⟨a, ha, heq⟩
    obtain rfl : f = g := Option.some.inj (hf.symm.trans hg)
    cases hwrapper.symm.trans hserved.1
  rw [← bound?_addRequestedBases s s.requests.bases p, ← hattached.kept p htarget]
  exact hf

/-- What each proposal and each native wrapper keeps holds at a place when all declarations have been registered. -/
theorem Settles.of_run (hP : Settles P) (hempty : P [] none) {patches : Patches} {headers : NameSet}
    {stream : List (Except DeclarationError Declaration)} {t : Selection}
    (hrun : (start { patches, headers }).runAll stream = (t, none)) (p : Place) :
    let learned := ((start { patches, headers }).learnAll stream).1
    P (learned.proposalsOf p stream) ((learned.registerAll stream).1.registry.bound? p) := by
  intro learned
  obtain ⟨_, _, _, _, hlearned⟩ := learnAll_rest (start { patches, headers }) stream
  have hfree : learned.registry.bound? p = none := by
    rw [show learned = _ from hlearned]
    cases p <;> rfl
  have hsettled := hP.registerAll (hfree.symm ▸ hempty) (passes_of_run hrun).2.1
  rwa [List.nil_append] at hsettled

/-- After a run, the functions without a native wrapper are what was proposed for their places. -/
theorem holds_of_run {patches : Patches} {headers : NameSet} {stream : List (Except DeclarationError Declaration)}
    {t : Selection} (hrun : (start { patches, headers }).runAll stream = (t, none)) {f : BoundFunction}
    (hf : t.registry.bound? p = some f) (hwrapper : f.wrapperName = none) :
    Holds (Proposal.accepted (((start { patches, headers }).learnAll stream).1.proposalsOf p stream)) (some f) := by
  obtain ⟨-, -, hsettled⟩ := passes_of_run hrun
  have hstart : Changes { patches, headers } (start { patches, headers }).registry := changes_includeAll _ _
  have hchanges := (hstart.trans (changes_learnAll (start { patches, headers }) stream)).trans
    (changes_registerAll ((start { patches, headers }).learnAll stream).1 stream)
  have hempty : Holds (Proposal.accepted []) none := ⟨fun _ => rfl, fun g hg => absurd hg.symm (Option.some_ne_none g)⟩
  rw [hsettled, bound?_settled_iff _ (placed_complete patches headers stream)] at hf
  rw [← bound?_of_assembled ((Registry.Stocked.empty patches headers).changes hchanges) hf.1 hwrapper]
  exact Holds.settles.of_run hempty hrun p

end Proposals

end Selection

/-! ### Results -/

/-- Are results pushed alike? -/
def CxxType.SameResult (a b : CxxType) : Prop :=
  a.qualifiedName = b.qualifiedName ∧ a.mods = b.mods ∧ a.isVoidValue = b.isVoidValue

instance (a b : CxxType) : Decidable (a.SameResult b) := inferInstanceAs (Decidable (_ ∧ _ ∧ _))

/-- CORRECT: after a run that succeeds, a member or free function without a native wrapper has the overloads of the
accepted proposals for its place, each one the signature of a function that was declared, and the result of the first.
All of them have this result exactly when each proposal with another one is covered by the overloads before it. -/
theorem overloads_return_own_iff (patches : Patches) (headers : NameSet)
    (stream : List (Except DeclarationError Declaration)) (s : Selection)
    (hrun : (start { patches, headers }).runAll stream = (s, none)) :
    let learned := ((start { patches, headers }).learnAll stream).1
    ∀ p f, s.registry.bound? p = some f → f.wrapperName = none →
      let proposals := learned.proposalsOf p stream
      f.overloads = (Proposal.accepted proposals).map (·.overload)
        ∧ (∀ c ∈ Proposal.accepted proposals, .ok (.function c.declared) ∈ stream
          ∧ learned.signature c.declared = .ok (c.overload, c.result))
        ∧ (∃ first ∈ (Proposal.accepted proposals).head?, first.result = f.result)
        ∧ ((∀ c ∈ Proposal.accepted proposals, c.result.SameResult f.result)
          ↔ ∀ before proposal after, proposals = before ++ proposal :: after → ¬ proposal.result.SameResult f.result →
            proposal.isCovered (Proposal.accepted before) = true) := by
  intro learned p f hf hwrapper proposals
  obtain ⟨hoverloads, hfirst⟩ := (holds_of_run hrun hf hwrapper).taken f rfl hwrapper
  refine ⟨hoverloads, fun c hc => mem_proposalsOf (Proposal.mem_of_mem_accepted hc), hfirst,
    fun hown before proposal after hsplit hother => ?_, fun hcovered c hc => ?_⟩
  · -- a proposal that is not covered is accepted
    by_contra hnew
    rw [Bool.not_eq_true] at hnew
    exact hother (hown proposal (Proposal.mem_accepted_iff.2 ⟨before, after, hsplit, hnew⟩))
  · obtain ⟨before, after, hsplit, hnew⟩ := Proposal.mem_accepted_iff.1 hc
    by_contra hother
    rw [hcovered before c after hsplit hother] at hnew
    cases hnew

/-- A free function `Get` that is asked for where it is declared. -/
def getOf (param returns : String) : DeclaredFunction where
  name := "Get"
  scope := ""
  params := [⟨"key", param⟩]
  returns
  isStatic := false
  comment := "CUSTOM_ATTRIBUTE[Lua(Main)]"
  owner := none
  isConstructor := false
  source := "get.hpp"

/-- What `Get` returns for a flag is also what it returns for a number. -/
def alikeGets : List (Except DeclarationError Declaration) :=
  [.ok (.function (getOf "int" "int")), .ok (.function (getOf "bool" "int"))]

theorem alike_gets_return_own : ∃ s, (start {}).runAll alikeGets = (s, none)
    ∧ ∃ f, s.registry.bound? (.free "::Get") = some f ∧ f.wrapperName = none ∧ f.overloads.length = 2
      ∧ ∀ c ∈ Proposal.accepted (((start {}).learnAll alikeGets).1.proposalsOf (.free "::Get") alikeGets),
        c.result.SameResult f.result := by
  have hends : ((start {}).runAll alikeGets).2 = none
      ∧ (((start {}).runAll alikeGets).1.registry.bound? (.free "::Get")).any (fun f => f.wrapperName.isNone
        && f.overloads.length == 2
        && (((start {}).learnAll alikeGets).1.proposalsOf (.free "::Get") alikeGets).all
          fun c => c.result.SameResult f.result) = true := by
    decide +kernel
  obtain ⟨hnone, hany⟩ := hends
  obtain ⟨f, hf, hholds⟩ := (Option.any_eq_true ..).1 hany
  simp only [Bool.and_eq_true, Option.isNone_iff_eq_none, beq_iff_eq, List.all_eq_true, decide_eq_true_eq] at hholds
  obtain ⟨⟨hwrapper, hlength⟩, hsame⟩ := hholds
  have hrun := eq_of_ends hnone
  refine ⟨_, hrun, f, hf, hwrapper, hlength,
    (overloads_return_own_iff {} ∅ alikeGets _ hrun (.free "::Get") f hf hwrapper).2.2.2.2 ?_⟩
  intro before proposal after hsplit hother
  have hmem : proposal ∈ ((start {}).learnAll alikeGets).1.proposalsOf (.free "::Get") alikeGets := by
    rw [show ((start {}).learnAll alikeGets).1.proposalsOf (.free "::Get") alikeGets = _ from hsplit]
    exact List.mem_append_right _ List.mem_cons_self
  exact absurd (hsame proposal hmem) hother

/-- `Get` has a number for a number and a text for a flag. -/
def mixedGets : List (Except DeclarationError Declaration) :=
  [.ok (.function (getOf "int" "int")), .ok (.function (getOf "bool" "std::string"))]

/-- The text is pushed as if it were a number. -/
theorem mixed_gets_merged : ((start {}).runAll mixedGets).2 = none
    ∧ ∃ f, ((start {}).runAll mixedGets).1.registry.bound? (.free "::Get") = some f ∧ f.wrapperName = none
      ∧ ∃ declared overload result, .ok (.function declared) ∈ mixedGets
        ∧ ((start {}).learnAll mixedGets).1.signature declared = .ok (overload, result) ∧ overload ∈ f.overloads
        ∧ ¬ result.SameResult f.result := by
  have hends : ((start {}).runAll mixedGets).2 = none
      ∧ (((start {}).runAll mixedGets).1.registry.bound? (.free "::Get")).any (fun f => f.wrapperName.isNone
        && (Proposal.accepted (((start {}).learnAll mixedGets).1.proposalsOf (.free "::Get") mixedGets)).any
          fun c => !decide (c.result.SameResult f.result)) = true := by
    decide +kernel
  obtain ⟨hnone, hany⟩ := hends
  obtain ⟨f, hf, hholds⟩ := (Option.any_eq_true ..).1 hany
  simp only [Bool.and_eq_true, Option.isNone_iff_eq_none, List.any_eq_true, Bool.not_eq_true',
    decide_eq_false_iff_not] at hholds
  obtain ⟨hwrapper, c, hc, hother⟩ := hholds
  have hrun := eq_of_ends hnone
  obtain ⟨hoverloads, -⟩ := (holds_of_run hrun hf hwrapper).taken f rfl hwrapper
  obtain ⟨hstream, hsignature⟩ := mem_proposalsOf (Proposal.mem_of_mem_accepted hc)
  refine ⟨hnone, f, hf, hwrapper, c.declared, c.overload, c.result, hstream, hsignature, ?_, hother⟩
  rw [hoverloads]
  exact List.mem_map_of_mem hc

end LuaGlue
