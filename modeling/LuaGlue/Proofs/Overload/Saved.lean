import LuaGlue.Proofs.Overload.Dispatch
import LuaGlue.Proofs.Retrieval.Parts
import LuaGlue.Proofs.Retrieval.Pieces

/-!
Saved parameters in the branches of a dispatch.

A plain function pointer cannot capture anything, so what it needs to call its Lua function is saved on a stack that
belongs to its slot and its branch. The entry is pushed while the arguments are read, and is to be dropped once the
native call is over. Two things can go wrong (`branch_restores_saved_iff`): a branch drops the entries of the branches
before it as well, and a call whose result is wanted stands in a `return`, so nothing behind it is run.

    Watch(void(*)(int))          save 1   call   drop 1
    Watch(int, void(*)(int))     save 2   call   drop 1   drop 2        there is no stack 1 in this branch
    with a result                save 1   return call     drop 1        never reached
-/

namespace LuaGlue

/-! ### What is saved -/

/-- Is it a function pointer, which has no storage of its own? -/
def CxxType.isBareFunction : CxxType → Bool
  | .function _ _ hasStorage _ => !hasStorage
  | _ => false

/-- The slots of the parameters that are saved while they are read, from this index on. -/
def Overload.savedFrom (start : Nat) : Overload → List Nat
  | [] => []
  | param :: rest => (if param.type.isBareFunction then [start + 1] else []) ++ savedFrom (start + 1) rest

/-- The slots of the parameters that are saved while an overload is read. -/
def Overload.savedSlots (o : Overload) : List Nat := o.savedFrom 0

/-- What a statement of a branch does to the stacks of saved parameters. -/
inductive SavingStep where
  /-- An entry for a slot is pushed. -/
  | save (slot : Nat)
  /-- The native call, which is the end of the branch if its result is returned. -/
  | call (returns : Bool)
  /-- The last entry for a slot is dropped. -/
  | drop (slot : Nat)
  deriving DecidableEq, Repr

namespace SavingStep

/-- The number of entries for each slot after some steps, unless an entry is dropped that is not there. -/
def runAll (heights : Nat → Nat) : List SavingStep → Option (Nat → Nat)
  | [] => some heights
  | .save slot :: rest => runAll (Function.update heights slot (heights slot + 1)) rest
  | .call true :: _ => some heights
  | .call false :: rest => runAll heights rest
  | .drop slot :: rest =>
    if heights slot = 0 then none else runAll (Function.update heights slot (heights slot - 1)) rest

/-- The slot an entry is dropped for, if one is. -/
def dropped? : SavingStep → Option Nat
  | .drop slot => some slot
  | _ => none

end SavingStep

/-- The steps of a piece of the code. -/
def Piece.savings : Piece → List SavingStep
  | .convert conversion => conversion.savedSlots.map .save
  | .finish tail => .call tail.call.resultMarks.isSome :: tail.dropped.map .drop
  | _ => []

/-- The steps of a branch, in order. -/
def Branch.savings (b : Branch) : List SavingStep := b.pieces.flatMap Piece.savings

/-- The slots a branch drops entries for, in order. -/
def Branch.drops (b : Branch) : List Nat := b.savings.filterMap SavingStep.dropped?

/-- The branches of a call; one overload needs none. -/
def CallCode.branches : CallCode → List Branch
  | .single _ _ => []
  | .overloaded _ _ _ branches => branches

/-- Does the branch for an overload leave the stacks of saved parameters as they were? -/
structure Branch.RestoresSaved (b : Branch) (o : Overload) : Prop where
  /-- It drops what its own parameters have saved. -/
  own : b.drops = o.savedSlots
  /-- It drops nothing behind a return. -/
  reached : ∀ before after, b.savings = before ++ .call true :: after → ∀ slot, .drop slot ∉ after
  /-- Where only its own slots have entries, a run leaves as many as there were. -/
  balanced : ∀ heights, (∀ slot ∉ o.savedSlots, heights slot = 0) →
    SavingStep.runAll heights b.savings = some heights

/-! ### The text of the steps -/

/-- A conversion pushes an entry for each slot it saves. -/
theorem Closure.render_eq (c : Closure) : c.render
    = String.join ((Conversion.closure c).savedSlots.map renderSaved) ++ c.renderLambda ++ c.renderParam := by
  rw [render, Conversion.savedSlots]
  cases c.hasStorage with
  | true => rfl
  | false => simp [String.join_cons]

/-! ### Runs -/

namespace SavingStep

/-- Pushing raises each stack by the entries for its slot. -/
theorem runAll_saves (heights : Nat → Nat) (slots : List Nat) (rest : List SavingStep) :
    runAll heights (slots.map .save ++ rest) = runAll (fun slot => heights slot + slots.count slot) rest := by
  induction slots generalizing heights with
  | nil => rfl
  | cons first slots ih =>
    rw [List.map_cons, List.cons_append, runAll, ih]
    congr 1
    funext slot
    by_cases h : slot = first
    · subst h
      simp [Function.update_self]
      omega
    · simp [Function.update_of_ne h, List.count_cons_of_ne (Ne.symm h)]

/-- What has been pushed can be dropped again. -/
theorem runAll_drops (heights : Nat → Nat) (slots : List Nat) :
    runAll (fun slot => heights slot + slots.count slot) (slots.map .drop) = some heights := by
  induction slots with
  | nil => rfl
  | cons first slots ih =>
    rw [List.map_cons, runAll, if_neg (by simp), ← ih]
    congr 1
    funext slot
    by_cases h : slot = first
    · subst h
      simp [Function.update_self]
    · simp [Function.update_of_ne h, List.count_cons_of_ne (Ne.symm h)]

end SavingStep

/-! ### Branches -/

section Branches

variable {f : BoundFunction} {registry : Registry}

theorem Extraction.savedSlots_ofType {layout : Layout} {t : CxxType} {slot : Nat} {e : Extraction}
    (h : ofType layout registry t slot = .ok e) : e.savedSlots = if t.isBareFunction then [slot] else [] := by
  cases madeOf h with
  | object ref m htype =>
    subst htype
    rfl
  | direct value _ hneeds =>
    cases t with
    | function => cases hneeds
    | _ => rfl
  | converted value conversion _ _ hconversion =>
    cases Conversion.madeOf hconversion with
    | widen | array => rfl
    | @closure _ _ hasStorage c m hclosure =>
      have hmade := Closure.madeOf hclosure
      rw [savedSlots, Conversion.savedSlots, hmade.hasStorage_eq, hmade.slot_eq]
      cases hasStorage <;> rfl

theorem Extraction.savedSlots_ofOverload {layout : Layout} {o : Overload} {start : Nat} {es : List Extraction}
    (h : ((o.zipIdx start).mapM fun (param, i) => ofType layout registry param.type (i + 1)) = .ok es) :
    es.flatMap (·.savedSlots) = o.savedFrom start := by
  induction o generalizing start es with
  | nil =>
    cases h
    rfl
  | cons param rest ih =>
    rw [List.zipIdx_cons] at h
    obtain ⟨e, later, he, hlater, rfl⟩ := mapM_cons_eq_ok.1 h
    rw [List.flatMap_cons, savedSlots_ofType he, ih hlater, Overload.savedFrom]

/-- The pieces that read an argument only save. -/
theorem Extraction.savings_pieces (e : Extraction) : e.pieces.flatMap Piece.savings = e.savedSlots.map .save := by
  match e with
  | .object fetch => rfl
  | .checked slot check (.direct byReference value) => rfl
  | .checked slot check (.converted value conversion) =>
    simp [pieces, Piece.savings, savedSlots]

theorem Branch.savings_eq {b : Branch} {tail : CallTail} (h : b.tail = some tail) : b.savings
    = (b.extractions.flatMap (·.savedSlots)).map .save
      ++ .call tail.call.resultMarks.isSome :: tail.dropped.map .drop := by
  have hreads : (b.extractions.flatMap Extraction.pieces).flatMap Piece.savings
      = (b.extractions.flatMap (·.savedSlots)).map .save := by
    rw [List.flatMap_assoc, List.map_flatMap]
    simp only [Extraction.savings_pieces]
  rw [savings, pieces, h, List.flatMap_cons, List.flatMap_append, hreads]
  simp [Piece.savings]

/-- A branch ends with its call and the statements that drop entries. -/
theorem Branch.render_of_tail {b : Branch} {tail : CallTail} (h : b.tail = some tail) :
    ∃ reads, b.render = reads ++ tail.call.render .branch ++ String.join (tail.dropped.map Closure.resetSaved)
      ++ Text.line 12 "\x7d" := by
  unfold render
  rw [h, Option.map_some, Option.getD_some, CallTail.render]
  simp only [← String.append_assoc]
  exact ⟨_, rfl⟩

/-- Each branch drops what the branches up to it have saved. -/
theorem branch_of_branchesFrom {index : Nat} {saved : List Nat} {overloads : List Overload} {branches : List Branch}
    (h : CallCode.branchesFrom f registry true index saved overloads = .ok branches) {x : Nat} {o : Overload}
    (ho : overloads[x]? = some o) : ∃ b, branches[x]? = some b
      ∧ b.extractions.flatMap (·.savedSlots) = o.savedSlots
      ∧ b.tail = some ⟨.ofOverload f o, saved ++ (overloads.take (x + 1)).flatMap Overload.savedSlots⟩ := by
  induction overloads generalizing index saved branches x with
  | nil => simp at ho
  | cons first rest ih =>
    rw [CallCode.branchesFrom] at h
    obtain ⟨es, hes, h⟩ := bind_eq_ok.1 h
    obtain ⟨later, hlater, h⟩ := bind_eq_ok.1 h
    cases h
    have hslots : es.flatMap (·.savedSlots) = first.savedSlots := Extraction.savedSlots_ofOverload hes
    cases x with
    | zero =>
      obtain rfl := Option.some.inj ho
      exact ⟨_, rfl, hslots, by simp [hslots]⟩
    | succ x =>
      obtain ⟨b, hb, hown, htail⟩ := ih hlater (by simpa using ho)
      refine ⟨b, by simpa using hb, hown, ?_⟩
      rw [htail, hslots]
      simp [List.append_assoc]

end Branches

/-! ### Branches that restore what they have saved -/

theorem NativeCall.isSome_marksOf (result : CxxType) : (marksOf result).isSome = !result.isVoidValue := by
  rw [marksOf]
  cases result.isVoidValue <;> rfl

section Restoring

variable {b : Branch} {o : Overload} {returns : Bool} {dropped : List Nat}

theorem Branch.drops_eq (h : b.savings = o.savedSlots.map .save ++ .call returns :: dropped.map .drop) :
    b.drops = dropped := by
  have hsaves : ∀ slots : List Nat, (slots.map SavingStep.save).filterMap SavingStep.dropped? = [] :=
    fun slots => by simp [List.filterMap_map, SavingStep.dropped?]
  have hdrops : (dropped.map SavingStep.drop).filterMap SavingStep.dropped? = dropped := by
    rw [List.filterMap_map]
    exact List.filterMap_some
  rw [drops, h, List.filterMap_append, hsaves, List.filterMap_cons_none rfl, hdrops, List.nil_append]

/-- A branch restores what it has saved if it drops that alone, and nothing if the call returns. -/
theorem Branch.restoresSaved_iff (h : b.savings = o.savedSlots.map .save ++ .call returns :: dropped.map .drop) :
    b.RestoresSaved o ↔ dropped = o.savedSlots ∧ (returns = false ∨ o.savedSlots = []) := by
  constructor
  · intro hrestores
    obtain rfl : dropped = o.savedSlots := (drops_eq h).symm.trans hrestores.own
    refine ⟨rfl, ?_⟩
    cases returns with
    | false => exact .inl rfl
    | true =>
      have hreached := hrestores.reached _ _ h
      exact .inr (List.eq_nil_iff_forall_not_mem.2 fun slot hslot => hreached slot (List.mem_map_of_mem hslot))
  · rintro ⟨rfl, hreturns⟩
    cases returns with
    | false =>
      refine ⟨drops_eq h, fun before after hsplit => ?_, fun heights _ => ?_⟩
      · have hreturn : SavingStep.call true ∈ b.savings := by simp [hsplit]
        simp [h] at hreturn
      · rw [h, SavingStep.runAll_saves, SavingStep.runAll, SavingStep.runAll_drops]
    | true =>
      have hnone : o.savedSlots = [] := hreturns.resolve_left (by simp)
      simp only [hnone, List.map_nil, List.nil_append] at h
      refine ⟨drops_eq (o := o) (by rw [hnone]; exact h), fun before after hsplit slot => ?_, fun heights _ => ?_⟩
      · obtain ⟨-, hafter⟩ : before = [] ∧ after = [] := by
          simpa [h, List.cons_eq_append_iff] using hsplit
        simp [hafter]
      · rw [h, SavingStep.runAll]

end Restoring

/-- CORRECT: behind its call the branch for an overload drops entries for its own saved parameters and for those of
all overloads before it. It leaves the stacks as they were exactly if no overload before it saves anything, and
nothing is returned or it saves nothing itself. -/
theorem branch_restores_saved_iff (f : BoundFunction) (registry : Registry) (code : CallCode)
    (hmany : 2 ≤ f.overloads.length) (hcode : CallCode.of f registry true = .ok code) (x : Nat) (o : Overload)
    (ho : f.overloads[x]? = some o) :
    ∃ b, code.branches[x]? = some b
      ∧ (∃ reads, b.render = reads ++ (NativeCall.ofOverload f o).render .branch
        ++ String.join (b.drops.map Closure.resetSaved) ++ Text.line 12 "\x7d")
      ∧ b.drops = (f.overloads.take (x + 1)).flatMap Overload.savedSlots
      ∧ (b.RestoresSaved o ↔ (∀ earlier ∈ f.overloads.take x, earlier.savedSlots = [])
        ∧ (f.result.isVoidValue = true ∨ o.savedSlots = [])) := by
  obtain ⟨branches, hbranches, rfl⟩ := of_eq_ok_overloaded hmany hcode
  obtain ⟨b, hb, hown, htail⟩ := branch_of_branchesFrom hbranches ho
  rw [List.nil_append] at htail
  have hsavings := Branch.savings_eq htail
  rw [hown] at hsavings
  obtain ⟨reads, hrender⟩ := Branch.render_of_tail htail
  refine ⟨b, hb, ⟨reads, by rw [hrender, Branch.drops_eq hsavings]⟩, Branch.drops_eq hsavings, ?_⟩
  have hearlier : (f.overloads.take (x + 1)).flatMap Overload.savedSlots = o.savedSlots
      ↔ ∀ earlier ∈ f.overloads.take x, earlier.savedSlots = [] := by
    rw [List.take_add_one, ho, List.flatMap_append, Option.toList_some, List.flatMap_singleton,
      List.append_left_eq_self, List.flatMap_eq_nil_iff]
  have hreturns : (NativeCall.ofOverload f o).resultMarks.isSome = false ↔ f.result.isVoidValue = true := by
    rw [NativeCall.ofOverload, NativeCall.isSome_marksOf, Bool.not_eq_false']
  rw [Branch.restoresSaved_iff hsavings, hearlier, hreturns]

/-- `Tick(int)` and `Tick(void(*)(int), int)`, without a result. -/
def tick : BoundFunction :=
  { BoundFunction.new "Tick" "" CxxType.plainVoid with
    overloads := [[⟨"count", .numeric .int32 {}⟩],
      [⟨"each", .function [.numeric .int32 {}] CxxType.plainVoid false {}⟩, ⟨"count", .numeric .int32 {}⟩]] }

theorem tick_restores_saved : ∃ code b, 2 ≤ tick.overloads.length ∧ CallCode.of tick {} true = .ok code
    ∧ code.branches[1]? = some b ∧ b.drops = [1]
    ∧ ∃ o, tick.overloads[1]? = some o ∧ b.RestoresSaved o := by
  obtain ⟨b, hb, -, hdrops, hrestores⟩ := branch_restores_saved_iff tick {} _ (by decide) rfl 1 _ rfl
  exact ⟨_, b, by decide, rfl, hb, hdrops, _, rfl, hrestores.2 (by decide)⟩

/-- `Watch(void(*)(int))` and `Watch(int, void(*)(int))`, without a result. -/
def watchOverloads : BoundFunction :=
  { BoundFunction.new "Watch" "" CxxType.plainVoid with
    overloads := [[⟨"each", .function [.numeric .int32 {}] CxxType.plainVoid false {}⟩],
      [⟨"count", .numeric .int32 {}⟩, ⟨"each", .function [.numeric .int32 {}] CxxType.plainVoid false {}⟩]] }

/-- The branch for the second overload drops an entry for the first slot, which it has no stack for. -/
theorem watch_drops_earlier : ∃ code b, CallCode.of watchOverloads {} true = .ok code ∧ code.branches[1]? = some b
    ∧ watchOverloads.overloads[1]?.map Overload.savedSlots = some [2] ∧ b.drops = [1, 2] :=
  ⟨_, _, rfl, rfl, by decide, by decide⟩

end LuaGlue
