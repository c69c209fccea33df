import LuaGlue.Binding.Registry
import LuaGlue.Proofs.Retrieval.Pieces

/-!
Runs of the code of a call.

A run goes through the pieces of the text from the first to the last. What it finds on the Lua stack, and
what the pieces do to that, is left open: a `Host` answers every check in every state, so a statement about
all hosts covers all contents of the stack and all native code.

    require          goes on only if the check holds; `luaL_argcheck` does not return otherwise
    take             the value is retrieved, which a `Retrieval` notes
    enter .. leave   of a chain of branches only the first whose index was chosen is run
-/

namespace LuaGlue

variable {σ : Type} {registry : Registry}

/-- What the generated code runs on. -/
structure Host (σ : Type) where
  /-- Does a check hold for what is on the Lua stack? -/
  holds : σ → String → Bool
  /-- The state after a piece, unless it raises an error. -/
  after : σ → Piece → Option σ
  /-- The index that was selected. -/
  chosen : σ → Nat

/-- A value that was read from the Lua stack. -/
structure Retrieval (σ : Type) where
  /-- The state in which it was read. -/
  state : σ
  slot : Int
  /-- The expression that reads it. -/
  value : String

/-- Where a run is in a chain of branches. -/
inductive Phase where
  /-- The pieces are run: outside the chain, or in the branch that was chosen. -/
  | running
  /-- The branch that was chosen comes later, if at all. -/
  | seeking
  /-- The branch that was chosen is over. -/
  | passed
  deriving DecidableEq, Repr

/-- Does the piece retrieve a value? -/
def Piece.takesValue : Piece → Bool
  | .take _ _ _ => true
  | _ => false

/-- The retrieval that a piece makes. -/
def Piece.retrievals (s : σ) : Piece → List (Retrieval σ)
  | .take _ slot value => [⟨s, slot, value⟩]
  | _ => []

namespace Host

/-- One piece: what is retrieved, and where the run goes on unless it ends. -/
def step (host : Host σ) (phase : Phase) (s : σ) (p : Piece) :
    List (Retrieval σ) × Option (Phase × σ) :=
  match phase, p with
  | .running, .require _ check => ([], if host.holds s check then some (.running, s) else none)
  | .running, .choose _ _ _ => ([], (host.after s p).map (.seeking, ·))
  | .running, .leave => ([], some (.passed, s))
  | .running, p => (p.retrievals s, (host.after s p).map (.running, ·))
  | .seeking, .enter index => ([], some (if host.chosen s = index then .running else .seeking, s))
  | .seeking, .uncaught => ([], none)
  | .passed, .uncaught => ([], some (.running, s))
  | phase, _ => ([], some (phase, s))

/-- The retrievals of a run, in order. -/
def run (host : Host σ) (phase : Phase) (s : σ) : List Piece → List (Retrieval σ)
  | [] => []
  | p :: rest =>
    (host.step phase s p).1 ++
      match (host.step phase s p).2 with
      | some (phase, s) => host.run phase s rest
      | none => []

end Host

/-- The result of a closure is read only where its check holds. -/
def LambdaResult.run (host : Host σ) (s : σ) (r : LambdaResult) : List (Retrieval σ) :=
  if host.holds s r.check then [⟨s, -1, r.value⟩] else []

/-- A retrieval of a value of this type from this slot, made where its check holds. -/
structure Retrieval.Justified (host : Host σ) (registry : Registry) (t : CxxType) (slot : Int)
    (r : Retrieval σ) : Prop where
  position : r.slot = slot
  value : t.retrieve slot registry = .ok r.value
  checked : host.holds r.state (t.validate slot) = true

/-! ### Runs retrieve only what was checked -/

/-- In every run of these pieces each retrieval reads one of these slots, and no class, where its check
holds. -/
def RetrievesOnly (registry : Registry) (slots : CxxType → Nat → Prop) (pieces : List Piece) : Prop :=
  ∀ (σ : Type) (host : Host σ) (phase : Phase) (s : σ), ∀ r ∈ host.run phase s pieces,
    ∃ t slot, slots t slot ∧ t.fetch? slot = none ∧ r.Justified host registry t slot

namespace RetrievesOnly

variable {slots : CxxType → Nat → Prop} {rest : List Piece}

theorem nil : RetrievesOnly registry slots [] := fun _ _ _ _ _ hr => absurd hr List.not_mem_nil

/-- A piece that takes nothing can stand anywhere. -/
theorem cons {p : Piece} (hp : p.takesValue = false)
    (h : RetrievesOnly registry slots rest) : RetrievesOnly registry slots (p :: rest) := by
  intro σ host phase s r hr
  have hnone : (host.step phase s p).1 = [] := by
    cases p with
    | take => cases hp
    | _ => cases phase <;> rfl
  rw [Host.run, hnone, List.nil_append] at hr
  split at hr
  · exact h _ host _ _ r hr
  · cases hr

/-- A value may be taken right behind its check. -/
theorem require_take {t : CxxType} {slot : Nat} {target : Target} {value : String} (hslot : slots t slot)
    (hobject : t.fetch? slot = none) (hvalue : t.retrieve slot registry = .ok value)
    (h : RetrievesOnly registry slots rest) :
    RetrievesOnly registry slots (.require slot (t.validate slot) :: .take target slot value :: rest) := by
  intro σ host phase s r hr
  cases phase with
  | running =>
    simp only [Host.run, Host.step, List.nil_append] at hr
    cases hcheck : host.holds s (t.validate slot) with
    | false => simp [hcheck] at hr
    | true =>
      simp only [hcheck, ↓reduceIte, Piece.retrievals, List.cons_append, List.nil_append,
        List.mem_cons] at hr
      rcases hr with rfl | hr
      · exact ⟨t, slot, hslot, hobject, rfl, hvalue, hcheck⟩
      · split at hr
        · exact h _ host _ _ r hr
        · cases hr
  | seeking => exact h _ host .seeking s r hr
  | passed => exact h _ host .passed s r hr

theorem finish (tail : Option CallTail) (h : RetrievesOnly registry slots rest) :
    RetrievesOnly registry slots (tail.toList.map .finish ++ rest) := by
  cases tail with
  | none => exact h
  | some tail => exact cons rfl h

end RetrievesOnly

end LuaGlue
