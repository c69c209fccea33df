import LuaGlue.Proofs.Functions.Offers
import Mathlib.Data.List.Induction

/-!
Whose overloads a free function holds.

The first offer to a key says which native function is called. Every later one that is not covered adds its
overload, whichever function it comes from. The `ledger` of the offers to a key keeps each overload together
with the declaration that has contributed it, and it is just what the function at the key holds
(`eq_of_foldl_settle`). So the overloads are those of the function itself exactly when each offer of another one
is refused.

    offers to "::run"     A::run(int)   B::run(int)   B::run(bool)
    ledger                A::run(int)     covered     B::run(bool)   ← passed on to A::run
-/

namespace LuaGlue

open Registry Selection

/-! ### What is kept of a list -/

/-- What is kept of a list where each element may add to what is kept of those before it. -/
def keepAll {α β : Type} (step : List β → α → Option β) (l : List α) : List β :=
  l.foldl (fun kept a => kept ++ (step kept a).toList) []

section Kept

variable {α β : Type} {step : List β → α → Option β}

theorem keepAll_concat (l : List α) (a : α) :
    keepAll step (l ++ [a]) = keepAll step l ++ (step (keepAll step l) a).toList := by
  rw [keepAll, List.foldl_append]
  rfl

/-- What is kept stays, and in its place. -/
theorem keepAll_prefix_append (l more : List α) : keepAll step l <+: keepAll step (l ++ more) := by
  induction more using List.reverseRecOn with
  | nil => simp only [List.append_nil, List.prefix_rfl]
  | append_singleton more a ih =>
    rw [← List.append_assoc, keepAll_concat]
    exact ih.trans (List.prefix_append _ _)

/-- What is kept has been added by an element, next to what was kept before it. -/
theorem mem_keepAll_iff {l : List α} {b : β} : b ∈ keepAll step l
    ↔ ∃ before a after, l = before ++ a :: after ∧ step (keepAll step before) a = some b := by
  constructor
  · induction l using List.reverseRecOn with
    | nil => exact fun h => absurd h List.not_mem_nil
    | append_singleton l a ih =>
      intro h
      rw [keepAll_concat] at h
      rcases List.mem_append.1 h with hb | hb
      · obtain ⟨before, found, after, rfl, hstep⟩ := ih hb
        exact ⟨before, found, after ++ [a], by simp, hstep⟩
      · exact ⟨l, a, [], rfl, Option.mem_toList.1 hb⟩
  · rintro ⟨before, a, after, rfl, hstep⟩
    rw [← List.singleton_append, ← List.append_assoc]
    refine (keepAll_prefix_append _ after).subset ?_
    rw [keepAll_concat, hstep]
    exact List.mem_append_right _ List.mem_cons_self

end Kept

/-! ### Contributions -/

/-- An overload, with the declaration it comes from. -/
structure Contribution where
  declared : DeclaredFunction
  overload : Overload

namespace Contribution

/-- Do contributions cover an overload? -/
def covers (kept : List Contribution) (o : Overload) : Bool :=
  (o.isEmpty && !kept.isEmpty) || kept.any (·.overload.equivalent o)

end Contribution

namespace Offer

/-- Does an offer come to nothing, because it is a native wrapper or is covered? -/
def isRefused (offer : Offer) (kept : List Contribution) : Bool :=
  match offer.types? with
  | some (o, _) => Contribution.covers kept o
  | none => true

/-- The contributions after one more offer. -/
def contribute (kept : List Contribution) (offer : Offer) : List Contribution :=
  match offer.types? with
  | some (o, _) => if Contribution.covers kept o then kept else kept ++ [⟨offer.declared, o⟩]
  | none => kept

/-- The contributions of offers, in order. -/
def ledger (offers : List Offer) : List Contribution := offers.foldl contribute []

/-- What an offer contributes next to earlier contributions. -/
def contribution? (kept : List Contribution) (offer : Offer) : Option Contribution :=
  if offer.isRefused kept then none else offer.types?.map fun types => ⟨offer.declared, types.1⟩

theorem contribute_eq (kept : List Contribution) (offer : Offer) :
    contribute kept offer = kept ++ (contribution? kept offer).toList := by
  rw [contribute, contribution?, isRefused]
  cases offer.types? with
  | none => simp
  | some types => cases hcovers : Contribution.covers kept types.1 <;> simp [hcovers]

theorem ledger_eq_keepAll (offers : List Offer) : ledger offers = keepAll contribution? offers := by
  rw [ledger, keepAll]
  simp only [← contribute_eq]

/-- What is kept stays, and in its place. -/
theorem ledger_prefix_append (offers more : List Offer) : ledger offers <+: ledger (offers ++ more) := by
  rw [ledger_eq_keepAll, ledger_eq_keepAll]
  exact keepAll_prefix_append offers more

/-- A contribution is an offer that those before it do not cover. -/
theorem mem_ledger_iff {offers : List Offer} {c : Contribution} :
    c ∈ ledger offers ↔ ∃ before offer after, offers = before ++ offer :: after ∧ offer.declared = c.declared
      ∧ (∃ result, offer.types? = some (c.overload, result)) ∧ offer.isRefused (ledger before) = false := by
  simp only [ledger_eq_keepAll, mem_keepAll_iff, contribution?]
  refine exists_congr fun before => exists_congr fun offer => exists_congr fun after => and_congr_right fun _ => ?_
  cases offer.isRefused (keepAll contribution? before) with
  | true => simp
  | false =>
    cases offer.types? with
    | none => simp
    | some types =>
      obtain ⟨overload, result⟩ := types
      cases c
      simp

/-! ### What a function holds -/

/-- An offer to a function that holds what the ledger has. -/
theorem settle_some {f : BoundFunction} {kept : List Contribution} (h : f.overloads = kept.map (·.overload))
    (offer : Offer) :
    offer.settle (some f) = some { f with overloads := (contribute kept offer).map (·.overload) } := by
  have hkept : some f = some { f with overloads := kept.map (·.overload) } := by rw [← h]
  rw [settle, update, contribute]
  cases htypes : offer.types? with
  | none => exact hkept
  | some types =>
    have hcovers : f.covers types.1 = Contribution.covers kept types.1 := by
      simp [BoundFunction.covers, Contribution.covers, h, List.any_map, Function.comp_def]
    simp only [extendWith_or_some, hcovers]
    cases Contribution.covers kept types.1 with
    | true => exact hkept
    | false => simp [h]

theorem foldl_settle_some {f : BoundFunction} {kept : List Contribution}
    (h : f.overloads = kept.map (·.overload)) (offers : List Offer) :
    offers.foldl (fun old o => o.settle old) (some f)
      = some { f with overloads := (offers.foldl contribute kept).map (·.overload) } := by
  induction offers generalizing f kept with
  | nil => rw [List.foldl_nil, List.foldl_nil, ← h]
  | cons offer rest ih =>
    rw [List.foldl_cons, List.foldl_cons, settle_some h offer]
    exact ih rfl

/-- A declaration that comes first says what the function is, and it holds what the ledger has. -/
theorem foldl_settle_cons {first : Offer} {o : Overload} {result : CxxType} (htypes : first.types? = some (o, result))
    (rest : List Offer) :
    (first :: rest).foldl (fun old o => o.settle old) none
        = some { newFunction first.declared first.request first.index first.luaName result with
            overloads := (ledger (first :: rest)).map (·.overload) }
      ∧ (ledger (first :: rest)).head? = some ⟨first.declared, o⟩ := by
  have hcontributed : contribute [] first = [⟨first.declared, o⟩] := by
    simp [contribute, htypes, Contribution.covers]
  have hfirst : first.settle none
      = some { newFunction first.declared first.request first.index first.luaName result with
          overloads := [⟨first.declared, o⟩].map Contribution.overload } := by
    simp [settle, update, fresh, htypes, extendWith, BoundFunction.addOverload, BoundFunction.covers,
      newFunction, BoundFunction.new, Except.toOption]
  have hledger : ledger (first :: rest) = rest.foldl contribute [⟨first.declared, o⟩] := by
    rw [ledger, List.foldl_cons, hcontributed]
  have hhead : (ledger (first :: rest)).head? = some ⟨first.declared, o⟩ := by
    obtain ⟨more, hmore⟩ := ledger_prefix_append [first] rest
    rw [ledger, List.foldl_cons, hcontributed, List.foldl_nil, List.singleton_append,
      List.singleton_append] at hmore
    rw [← hmore]
    rfl
  refine ⟨?_, hhead⟩
  rw [List.foldl_cons, hfirst, foldl_settle_some rfl, ← hledger]

/-- The function at a key: the first offer says what it is, and it holds what the ledger has. -/
theorem eq_of_foldl_settle {offers : List Offer} {f : BoundFunction}
    (h : offers.foldl (fun old o => o.settle old) none = some f) (hwrapper : f.wrapperName = none) :
    ∃ first rest o result, offers = first :: rest ∧ first.types? = some (o, result)
      ∧ (ledger offers).head? = some ⟨first.declared, o⟩
      ∧ f = { newFunction first.declared first.request first.index first.luaName result with
          overloads := (ledger offers).map (·.overload) } := by
  cases offers with
  | nil => cases h
  | cons first rest =>
    cases htypes : first.types? with
    | none =>
      -- a native wrapper that comes first keeps the place
      have hfirst : first.settle none
          = some (newCustomFunction first.declared first.request first.index first.luaName) := by
        simp [settle, update, fresh, htypes, standInFor]
      have hnone : (newCustomFunction first.declared first.request first.index first.luaName).overloads
          = ([] : List Contribution).map (·.overload) := rfl
      rw [List.foldl_cons, hfirst, foldl_settle_some hnone] at h
      cases h
      cases hwrapper
    | some types =>
      obtain ⟨hsettled, hhead⟩ := foldl_settle_cons htypes rest
      exact ⟨first, rest, types.1, types.2, rfl, htypes, hhead, Option.some.inj (h.symm.trans hsettled)⟩

end Offer

/-! ### Whole runs -/

/-- Is this the declaration of the native function that is called? -/
def BoundFunction.StandsFor (f : BoundFunction) (declared : DeclaredFunction) : Prop :=
  declared.scope = f.scope ∧ declared.name = f.name

instance (f : BoundFunction) (declared : DeclaredFunction) : Decidable (f.StandsFor declared) :=
  inferInstanceAs (Decidable (_ ∧ _))

/-- The offers that a sequence of declarations makes to one key. -/
def Selection.offersAt (s : Selection) (key : String) (stream : List (Except DeclarationError Declaration)) :
    List Offer :=
  (s.allOffers stream).filter fun o => o.key == key

theorem Selection.mem_offersAt {s : Selection} {key : String} {stream : List (Except DeclarationError Declaration)}
    {offer : Offer} : offer ∈ s.offersAt key stream
      ↔ .ok (.function offer.declared) ∈ stream ∧ offer ∈ s.offers (.function offer.declared) ∧ offer.key = key := by
  rw [offersAt, List.mem_filter, beq_iff_eq, mem_allOffers_iff, and_assoc]

/-- CORRECT: after a run that succeeds, a free function without a native wrapper holds what was contributed to its
key: each overload is the signature of a free function that was declared and requested under this key, and the first
of these functions is the one that is called. All of them are this one exactly when every offer of another function
is covered by the overloads that were there before. -/
theorem overloads_own_iff (patches : Patches) (headers : NameSet)
    (stream : List (Except DeclarationError Declaration)) (s : Selection)
    (hrun : (start { patches, headers }).runAll stream = (s, none)) :
    let learned := ((start { patches, headers }).learnAll stream).1
    ∀ key f, s.registry.functions.get? key = some f → f.wrapperName = none →
      let offers := learned.offersAt key stream
      f.overloads = (Offer.ledger offers).map (·.overload)
        ∧ (∀ c ∈ Offer.ledger offers, .ok (.function c.declared) ∈ stream ∧ c.declared.owner = none
          ∧ (∃ request luaName, learned.requestFor? c.declared = some request ∧ luaName ∈ request.names
            ∧ Scope.qualify request.scope luaName = key)
          ∧ ∃ result, learned.signature c.declared = .ok (c.overload, result))
        ∧ (∃ first ∈ (Offer.ledger offers).head?, f.StandsFor first.declared)
        ∧ ((∀ c ∈ Offer.ledger offers, f.StandsFor c.declared)
          ↔ ∀ before offer after, offers = before ++ offer :: after → ¬ f.StandsFor offer.declared →
            offer.isRefused (Offer.ledger before) = true) := by
  intro learned key f hf hwrapper offers
  obtain ⟨hsettled, -⟩ := (functions_of_run hrun).1 hf
  obtain ⟨first, -, o, result, -, -, hhead, heq⟩ := Offer.eq_of_foldl_settle hsettled hwrapper
  refine ⟨congrArg BoundFunction.overloads heq, fun c hc => ?_, ⟨_, hhead, ?_⟩, fun hown before offer after hsplit => ?_,
    fun hrefused c hc => ?_⟩
  · obtain ⟨before, offer, after, hsplit, hdeclared, ⟨result, htypes⟩, -⟩ := Offer.mem_ledger_iff.1 hc
    have hmem : offer ∈ learned.offersAt key stream := by
      rw [show learned.offersAt key stream = before ++ offer :: after from hsplit]
      exact List.mem_append_right _ List.mem_cons_self
    obtain ⟨hstream, hoffer, hkey⟩ := mem_offersAt.1 hmem
    obtain ⟨-, hfree, hname, hsource⟩ := mem_offers_iff.1 hoffer
    rw [htypes] at hsource
    obtain ⟨-, hrequest, hsignature⟩ := hsource
    rw [hdeclared] at hstream hfree hrequest hsignature
    exact ⟨hstream, hfree, ⟨offer.request, offer.luaName, hrequest, List.mem_of_getElem? hname, hkey⟩, result,
      hsignature⟩
  · rw [heq]
    exact ⟨rfl, rfl⟩
  · -- an offer that is not refused is a contribution
    intro hforeign
    by_contra hnew
    rw [Bool.not_eq_true] at hnew
    cases htypes : offer.types? with
    | none => simp [Offer.isRefused, htypes] at hnew
    | some types =>
      have hc : (⟨offer.declared, types.1⟩ : Contribution) ∈ Offer.ledger offers :=
        Offer.mem_ledger_iff.2 ⟨before, offer, after, hsplit, rfl, ⟨types.2, htypes⟩, hnew⟩
      exact hforeign (hown _ hc)
  · obtain ⟨before, offer, after, hsplit, hdeclared, -, hnew⟩ := Offer.mem_ledger_iff.1 hc
    by_contra hforeign
    rw [← hdeclared] at hforeign
    rw [hrefused before offer after hsplit hforeign] at hnew
    cases hnew

/-- The free function `run` of a scope. -/
def runOf (scope : String) (params : List DeclaredParam) : DeclaredFunction where
  name := "run"
  scope
  params
  returns := "void"
  isStatic := false
  comment := ""
  owner := none
  isConstructor := false
  source := "run.hpp"

/-- These functions, after the `run` of `A` and the `run` of `B` have both been asked for under the Lua name `run`. -/
def runs (functions : List DeclaredFunction) : List (Except DeclarationError Declaration) :=
  .ok (.remark "CUSTOM_ATTRIBUTE[LuaStateTypes(Main) LuaLate(FreeFunction, ::A::run, ::, run)]")
    :: .ok (.remark "CUSTOM_ATTRIBUTE[LuaStateTypes(Main) LuaLate(FreeFunction, ::B::run, ::, run)]")
    :: functions.map fun f => .ok (.function f)

/-- The `run` of `B` says nothing that the `run` of `A` has not said. -/
def coveredRuns : List (Except DeclarationError Declaration) :=
  runs [runOf "::A" [⟨"speed", "int"⟩], runOf "::B" [⟨"count", "int"⟩], runOf "::A" [⟨"far", "bool"⟩]]

theorem covered_run_refused : ∃ s, (start {}).runAll coveredRuns = (s, none)
    ∧ ∃ f, s.registry.functions.get? "::run" = some f ∧ f.wrapperName = none
      ∧ f.overloads.map (·.map Param.name) = [["speed"], ["far"]]
      ∧ ∀ before offer after, ((start {}).learnAll coveredRuns).1.offersAt "::run" coveredRuns
        = before ++ offer :: after → ¬ f.StandsFor offer.declared → offer.isRefused (Offer.ledger before) = true := by
  have hends : ((start {}).runAll coveredRuns).2 = none
      ∧ (((start {}).runAll coveredRuns).1.registry.functions.get? "::run").any (fun f => f.wrapperName.isNone
        && f.overloads.map (·.map Param.name) == [["speed"], ["far"]]
        && (Offer.ledger (((start {}).learnAll coveredRuns).1.offersAt "::run" coveredRuns)).all
          fun c => f.StandsFor c.declared) = true := by
    decide +kernel
  obtain ⟨hnone, hany⟩ := hends
  obtain ⟨f, hf, hholds⟩ := (Option.any_eq_true ..).1 hany
  simp only [Bool.and_eq_true, Option.isNone_iff_eq_none, beq_iff_eq, List.all_eq_true, decide_eq_true_eq] at hholds
  obtain ⟨⟨hwrapper, hnames⟩, hown⟩ := hholds
  have hrun := eq_of_ends hnone
  exact ⟨_, hrun, f, hf, hwrapper, hnames,
    (overloads_own_iff {} ∅ coveredRuns _ hrun "::run" f hf hwrapper).2.2.2.1 hown⟩

/-- The `run` of `B` takes what the `run` of `A` does not. -/
def mergedRuns : List (Except DeclarationError Declaration) :=
  runs [runOf "::A" [⟨"speed", "int"⟩], runOf "::B" [⟨"far", "bool"⟩]]

/-- The parameters of the `run` of `B` are passed on to that of `A`. -/
theorem runs_merged : ((start {}).runAll mergedRuns).2 = none
    ∧ ∃ f, ((start {}).runAll mergedRuns).1.registry.functions.get? "::run" = some f ∧ f.wrapperName = none
      ∧ ∃ c ∈ Offer.ledger (((start {}).learnAll mergedRuns).1.offersAt "::run" mergedRuns),
        c.overload ∈ f.overloads ∧ ¬ f.StandsFor c.declared := by
  have hends : ((start {}).runAll mergedRuns).2 = none
      ∧ (((start {}).runAll mergedRuns).1.registry.functions.get? "::run").any (fun f => f.wrapperName.isNone
        && (Offer.ledger (((start {}).learnAll mergedRuns).1.offersAt "::run" mergedRuns)).any
          fun c => !decide (f.StandsFor c.declared)) = true := by
    decide +kernel
  obtain ⟨hnone, hany⟩ := hends
  obtain ⟨f, hf, hholds⟩ := (Option.any_eq_true ..).1 hany
  simp only [Bool.and_eq_true, Option.isNone_iff_eq_none, List.any_eq_true, Bool.not_eq_true',
    decide_eq_false_iff_not] at hholds
  obtain ⟨hwrapper, c, hc, hforeign⟩ := hholds
  have hrun := eq_of_ends hnone
  obtain ⟨hsettled, -⟩ := (functions_of_run hrun).1 hf
  obtain ⟨_, _, _, _, -, -, -, heq⟩ := Offer.eq_of_foldl_settle hsettled hwrapper
  refine ⟨hnone, f, hf, hwrapper, c, hc, ?_, hforeign⟩
  rw [heq]
  exact List.mem_map_of_mem hc

end LuaGlue
