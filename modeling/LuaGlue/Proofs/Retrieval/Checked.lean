import LuaGlue.Call.Proto
import LuaGlue.Proofs.Results
import LuaGlue.Proofs.Retrieval.Parts
import LuaGlue.Proofs.Retrieval.Runs

/-!
No value is retrieved unchecked.

A slot is read in one of three ways (`ReadsSlot`), and the code of a call has one block for each overload,
which reads its slots in order (`blocks_readFrom`). A value is always taken right behind the check of its
type and slot, so in every run each retrieval happens where that check holds (`RetrievesOnly`). The same is
true of the result that a closure reads from the top of the stack (`Closure.ChecksResult`).

    argument of a class    lua_util_userdata_Get<own metatable, type, own convertible set>
    any other argument     luaL_argcheck(validate, slot + 1)  ─▶  retrieve  (─▶ conversion)
    result of a closure    if (validate at -1) return retrieve at -1;  else return the default value
-/

namespace LuaGlue

variable {registry : Registry}

/-! ### How the slots are read -/

/-- These pieces read the argument in a slot as this type. -/
inductive ReadsSlot (registry : Registry) (t : CxxType) (slot : Nat) : List Piece → Prop where
  /-- An object of a class, in one step. -/
  | object (r : ClassRef) (m : Modifiers) (htype : t = .record r m) :
    ReadsSlot registry t slot
      [.extract ⟨slot, m.isReference, r.tag, r.qualified ++ m.marks⟩, .gap]
  /-- A value, behind its check. -/
  | checked (value : String) (byReference : Bool) (hobject : t.fetch? slot = none)
      (hvalue : t.retrieve slot registry = .ok value) :
    ReadsSlot registry t slot
      [.require slot (t.validate slot), .take (.parameter byReference) slot value, .gap]
  /-- An intermediate value, behind its check, and its conversion. -/
  | converted (value : String) (conversion : Conversion) (hobject : t.fetch? slot = none)
      (hvalue : t.retrieve slot registry = .ok value)
      (hconversion : t.conversion slot registry = .ok conversion) :
    ReadsSlot registry t slot
      [.require slot (t.validate slot), .take .intermediate slot value, .convert conversion, .gap]

/-- These pieces read the arguments in the slots from this one on, one after another. -/
inductive ReadsFrom (registry : Registry) : Nat → Overload → List Piece → Prop where
  | nil (slot : Nat) : ReadsFrom registry slot [] []
  | cons {slot : Nat} {param : Param} {rest : Overload} {pieces later : List Piece}
      (hfirst : ReadsSlot registry param.type slot pieces)
      (hrest : ReadsFrom registry (slot + 1) rest later) :
    ReadsFrom registry slot (param :: rest) (pieces ++ later)

theorem Extraction.readsSlot {layout : Layout} {t : CxxType} {slot : Nat} {e : Extraction}
    (h : ofType layout registry t slot = .ok e) : ReadsSlot registry t slot e.pieces := by
  cases madeOf h with
  | object ref m htype => exact .object ref m htype
  | direct value hobject _ hvalue => exact .checked value _ hobject hvalue
  | converted value conversion hobject hvalue hconversion =>
    exact .converted value conversion hobject hvalue hconversion

theorem Extraction.readsFrom {layout : Layout} {o : Overload} {extractions : List Extraction} {start : Nat}
    (h : (o.zipIdx start).mapM (fun (param, i) => ofType layout registry param.type (i + 1))
      = .ok extractions) :
    ReadsFrom registry (start + 1) o (extractions.flatMap Extraction.pieces) := by
  induction o generalizing start extractions with
  | nil =>
    cases h
    exact .nil _
  | cons param rest ih =>
    obtain ⟨e, later, he, hlater, rfl⟩ := mapM_cons_eq_ok.1 h
    exact .cons (Extraction.readsSlot he) (ih hlater)

/-- Each branch reads the arguments of its overload. -/
theorem CallCode.branches_read {f : BoundFunction} {withCall : Bool} {index : Nat} {saved : List Nat}
    {overloads : List Overload} {branches : List Branch}
    (h : branchesFrom f registry withCall index saved overloads = .ok branches) :
    List.Forall₂ (fun o extractions => Extraction.ofOverload .branch registry o = .ok extractions) overloads
      (branches.map (·.extractions)) := by
  induction overloads generalizing index saved branches with
  | nil =>
    cases h
    exact .nil
  | cons o rest ih =>
    rw [branchesFrom] at h
    obtain ⟨extractions, hreads, h⟩ := bind_eq_ok.1 h
    obtain ⟨later, hlater, h⟩ := bind_eq_ok.1 h
    cases h
    exact .cons hreads (ih hlater)

/-- The code of a call reads the arguments of each overload, at the place its layout gives. -/
theorem CallCode.overloads_read {f : BoundFunction} {withCall : Bool} {code : CallCode}
    (h : CallCode.of f registry withCall = .ok code) :
    List.Forall₂ (fun o extractions => Extraction.ofOverload code.layout registry o = .ok extractions)
      f.overloads code.extractions := by
  obtain ⟨o, extractions, hone, hreads, rfl⟩ | ⟨branches, -, hbranches, rfl⟩ := of_cases h
  · rw [hone]
    exact .cons hreads .nil
  · exact branches_read hbranches

/-- The code of a call has one block for each overload, which reads its arguments. -/
theorem CallCode.blocks_readFrom {f : BoundFunction} {withCall : Bool} {code : CallCode}
    (h : CallCode.of f registry withCall = .ok code) :
    List.Forall₂ (ReadsFrom registry 1) f.overloads code.blocks := by
  rw [blocks_eq, List.forall₂_map_right_iff]
  exact (overloads_read h).imp fun _ _ hreads => Extraction.readsFrom hreads

/-! ### Runs of the blocks -/

namespace RetrievesOnly

variable {slots : CxxType → Nat → Prop} {rest : List Piece}

theorem readsSlot {t : CxxType} {slot : Nat} {pieces : List Piece} (hslot : slots t slot)
    (hreads : ReadsSlot registry t slot pieces) (h : RetrievesOnly registry slots rest) :
    RetrievesOnly registry slots (pieces ++ rest) := by
  cases hreads with
  | object => exact cons rfl (cons rfl h)
  | checked _ _ hobject hvalue => exact require_take hslot hobject hvalue (cons rfl h)
  | converted _ _ hobject hvalue _ =>
    exact require_take hslot hobject hvalue (cons rfl (cons rfl h))

theorem readsFrom {start : Nat} {o : Overload} {block : List Piece}
    (hslots : ∀ i p, o[i]? = some p → slots p.type (start + i)) (hreads : ReadsFrom registry start o block)
    (h : RetrievesOnly registry slots rest) : RetrievesOnly registry slots (block ++ rest) := by
  induction hreads with
  | nil => exact h
  | cons hfirst _ ih =>
    rw [List.append_assoc]
    refine readsSlot (hslots 0 _ rfl) hfirst (ih fun i p hp => ?_)
    rw [Nat.add_assoc, Nat.add_comm 1]
    exact hslots (i + 1) p hp

end RetrievesOnly

/-! ### Closures -/

/-- The result of this type is read from the top of the stack only where its check holds. -/
structure Closure.ChecksResult (registry : Registry) (result : CxxType) (c : Closure) : Prop where
  /-- Without a result nothing is read. -/
  absent : c.outcome = none ↔ result.isVoidValue = true
  /-- The check and the value are those of the type at the top of the stack. -/
  agrees : ∀ o, c.outcome = some o →
    o.check = result.validate (-1) ∧ result.retrieve (-1) registry = .ok o.value
  /-- Where it is read the check holds. -/
  runs : ∀ o, c.outcome = some o → ∀ (σ : Type) (host : Host σ) (s : σ), ∀ r ∈ o.run host s,
    r.Justified host registry result (-1)
  /-- No other part of the lambda depends on how the result is read. -/
  alone : ∃ before after, ∀ o : LambdaResult,
    ({ c with outcome := some o } : Closure).render = before ++ renderOutcome o ++ after

theorem Closure.outcome_alone (c : Closure) : ∃ before after, ∀ o : LambdaResult,
    ({ c with outcome := some o } : Closure).render = before ++ renderOutcome o ++ after := by
  have hassoc (saved start outcome close param : String) :
      saved ++ (start ++ outcome ++ close) ++ param = (saved ++ start) ++ outcome ++ (close ++ param) := by
    simp only [String.append_assoc]
  obtain ⟨slot, hasStorage, params, result, arguments, outcome, pointerText, plainText⟩ := c
  unfold render renderLambda renderHead resultCount renderParam
  cases hasStorage <;>
  · simp only [Option.isSome_some, Option.map_some, Option.getD_some, Bool.false_eq_true, ↓reduceIte]
    exact ⟨_, _, fun o => hassoc _ _ _ _ _⟩

/-- How a closure reads its result, if there is one. -/
theorem Closure.checksResult {signature : Signature} {slot : Nat} {c : Closure}
    (h : ofSignature signature slot registry = .ok c) : c.ChecksResult registry signature.result := by
  have hagrees : ∀ o, c.outcome = some o → o.check = signature.result.validate (-1)
      ∧ signature.result.retrieve (-1) registry = .ok o.value := by
    intro o ho
    rcases (madeOf h).outcome with ⟨-, hnone⟩ | ⟨-, value, fallback, hvalue, hsome⟩
    · rw [hnone] at ho
      cases ho
    · obtain rfl := Option.some.inj (hsome.symm.trans ho)
      exact ⟨rfl, hvalue⟩
  refine ⟨?_, hagrees, fun o ho σ host s r hr => ?_, c.outcome_alone⟩
  · rcases (madeOf h).outcome with ⟨hvoid, hnone⟩ | ⟨hvoid, value, fallback, -, hsome⟩
    · simp [hvoid, hnone]
    · simp [hvoid, hsome]
  · obtain ⟨hcheck, hvalue⟩ := hagrees o ho
    rw [LambdaResult.run] at hr
    split at hr
    · next hholds =>
      obtain rfl := List.mem_singleton.1 hr
      exact ⟨rfl, hvalue, hcheck ▸ hholds⟩
    · cases hr

/-- A closure made for this function type, which reads the result of that only where its check holds. -/
def Closure.MadeFor (registry : Registry) (t : CxxType) (c : Closure) : Prop :=
  ∃ params result hasStorage m, t = .function params result hasStorage m ∧ c.ChecksResult registry result

theorem ReadsSlot.madeFor {t : CxxType} {slot : Nat} {pieces : List Piece} {c : Closure}
    (h : ReadsSlot registry t slot pieces) (hc : .convert (.closure c) ∈ pieces) : c.MadeFor registry t := by
  cases h with
  | object => simp at hc
  | checked => simp at hc
  | converted value conversion hobject hvalue hconversion =>
    obtain rfl : Conversion.closure c = conversion := by simpa using hc
    cases Conversion.madeOf hconversion with
    | closure m hclosure => exact ⟨_, _, _, m, rfl, Closure.checksResult hclosure⟩

theorem ReadsFrom.madeFor {start : Nat} {o : Overload} {block : List Piece} {c : Closure}
    (h : ReadsFrom registry start o block) (hc : .convert (.closure c) ∈ block) :
    ∃ p ∈ o, c.MadeFor registry p.type := by
  induction h with
  | nil => cases hc
  | cons hfirst _ ih =>
    rcases List.mem_append.1 hc with hc | hc
    · exact ⟨_, List.mem_cons_self, hfirst.madeFor hc⟩
    · obtain ⟨p, hp, hmade⟩ := ih hc
      exact ⟨p, List.mem_cons_of_mem _ hp, hmade⟩

theorem Closure.madeFor_of_mem {overloads : List Overload} {blocks : List (List Piece)} {c : Closure}
    (h : List.Forall₂ (ReadsFrom registry 1) overloads blocks) (hc : .convert (.closure c) ∈ blocks.flatten) :
    ∃ o ∈ overloads, ∃ p ∈ o, c.MadeFor registry p.type := by
  induction h with
  | nil => cases hc
  | cons hfirst _ ih =>
    rcases List.mem_append.1 hc with hc | hc
    · exact ⟨_, List.mem_cons_self, hfirst.madeFor hc⟩
    · obtain ⟨o, ho, hmade⟩ := ih hc
      exact ⟨o, List.mem_cons_of_mem _ ho, hmade⟩

/-! ### The whole call -/

/-- One of these overloads has a parameter of this type in this slot. -/
def HasSlot (overloads : List Overload) (t : CxxType) (slot : Nat) : Prop :=
  ∃ o ∈ overloads, ∃ i p, o[i]? = some p ∧ p.type = t ∧ slot = i + 1

/-- The code reads the arguments of these overloads, and none of them unchecked. -/
structure CallCode.Checks (registry : Registry) (overloads : List Overload) (code : CallCode) : Prop where
  /-- The pieces are the whole text. -/
  text : Piece.textAll code.layout code.pieces = code.render
  /-- Each overload has a block, which reads its slots from the first one on. -/
  blocks : List.Forall₂ (ReadsFrom registry 1) overloads code.blocks
  /-- Arguments are handled in these blocks only. -/
  elsewhere : code.pieces.filter Piece.handlesArgument = code.blocks.flatten.filter Piece.handlesArgument
  /-- In every run a slot that holds no class is retrieved only where its check holds. -/
  runs : RetrievesOnly registry (HasSlot overloads) code.pieces
  /-- Each closure is made for the function type of a parameter. -/
  closures : ∀ c, .convert (.closure c) ∈ code.pieces → ∃ o ∈ overloads, ∃ p ∈ o, c.MadeFor registry p.type

namespace RetrievesOnly

variable {overloads all : List Overload} {rest : List Piece}

theorem block {o : Overload} {pieces : List Piece} (ho : o ∈ all) (hreads : ReadsFrom registry 1 o pieces)
    (h : RetrievesOnly registry (HasSlot all) rest) :
    RetrievesOnly registry (HasSlot all) (pieces ++ rest) :=
  readsFrom (fun i p hp => ⟨o, ho, i, p, hp, rfl, Nat.add_comm 1 i⟩) hreads h

theorem branches {branches : List Branch} (hall : ∀ o ∈ overloads, o ∈ all)
    (hreads : List.Forall₂ (ReadsFrom registry 1) overloads
      (branches.map fun b => b.extractions.flatMap Extraction.pieces))
    (h : RetrievesOnly registry (HasSlot all) rest) :
    RetrievesOnly registry (HasSlot all) (branches.flatMap Branch.pieces ++ rest) := by
  induction branches generalizing overloads with
  | nil => exact h
  | cons b later ih =>
    cases hreads with
    | cons hfirst hlater =>
      rw [List.flatMap_cons, Branch.pieces, List.append_assoc, List.cons_append, List.append_assoc,
        List.append_assoc]
      exact cons rfl (block (hall _ List.mem_cons_self) hfirst (finish b.tail (cons rfl
        (ih (fun o ho => hall o (List.mem_cons_of_mem _ ho)) hlater))))

end RetrievesOnly

theorem CallCode.retrievesOnly {code : CallCode} {overloads : List Overload}
    (h : List.Forall₂ (ReadsFrom registry 1) overloads code.blocks) :
    RetrievesOnly registry (HasSlot overloads) code.pieces := by
  cases code with
  | single extractions tail =>
    cases h with
    | cons hblock hnil =>
      cases hnil
      rw [pieces, ← List.append_nil (tail.toList.map _)]
      exact .block List.mem_cons_self hblock (.finish tail .nil)
  | overloaded name candidates resultMarks branches =>
    exact .cons rfl (.branches (fun _ ho => ho) h (.cons rfl .nil))

theorem CallCode.checks {f : BoundFunction} {withCall : Bool} {code : CallCode}
    (h : CallCode.of f registry withCall = .ok code) : code.Checks registry f.overloads where
  text := code.textAll_pieces
  blocks := blocks_readFrom h
  elsewhere := code.filter_pieces
  runs := retrievesOnly (blocks_readFrom h)
  closures c hc := by
    have hmem : .convert (.closure c) ∈ code.blocks.flatten.filter Piece.handlesArgument := by
      rw [← code.filter_pieces]
      exact List.mem_filter.2 ⟨hc, rfl⟩
    exact Closure.madeFor_of_mem (blocks_readFrom h) (List.mem_filter.1 hmem).1

theorem ProtoWrapper.arguments_alone (w : ProtoWrapper) : ∃ before after, ∀ code : CallCode,
    ({ w with arguments := code } : ProtoWrapper).render = before ++ code.render ++ after := by
  have hassoc (start code gap call result feed handler close : String) :
      start ++ code ++ gap ++ call ++ result ++ feed ++ handler ++ close
        = start ++ code ++ (gap ++ call ++ result ++ feed ++ handler ++ close) := by
    simp only [String.append_assoc]
  unfold render renderCall
  dsimp only
  exact ⟨_, _, fun code => hassoc _ _ _ _ _ _ _ _⟩

theorem ProtoWrapper.arguments_of {signature : Signature} {w : ProtoWrapper}
    (h : ProtoWrapper.of signature registry = .ok w) :
    ∃ name, CallCode.of (functionOf signature name) registry false = .ok w.arguments := by
  obtain ⟨name, -, h⟩ := bind_eq_ok.1 h
  obtain ⟨arguments, harguments, h⟩ := bind_eq_ok.1 h
  obtain ⟨pointerText, -, h⟩ := bind_eq_ok.1 h
  obtain ⟨push, -, h⟩ := bind_eq_ok.1 h
  cases h
  exact ⟨name, harguments⟩

/-- `Rate(int) -> float`. -/
def rateSignature : Signature := ⟨[.numeric .int32 {}], .numeric .float {}, false⟩

/-- `Watch(Panel& panel, Rate rate)` and `Watch(bool on)`. -/
def watch : BoundFunction :=
  { BoundFunction.new "Watch" "::Ui" CxxType.plainVoid with
    overloads :=
      [[⟨"panel", .record { name := "Panel", scope := "::Ui" } { isReference := true }⟩,
        ⟨"rate", .function rateSignature.params rateSignature.result false {}⟩],
       [⟨"on", .bool {}⟩]] }

/-- A host that answers every check in this way, after the overload with this index was selected. -/
def uniformHost (answer : Bool) (index : Nat) : Host Unit where
  holds _ _ := answer
  after _ _ := some ()
  chosen _ := index

end LuaGlue
