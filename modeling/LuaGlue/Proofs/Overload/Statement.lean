import LuaGlue.Call.Native
import Mathlib.Data.Finset.Card
import Mathlib.Logic.Function.Basic

/-!
The statements that the code of an overloaded call is made of, with their text and their meaning.

The text is what stands in the generated file. The meaning is a run on a `Machine`, which knows the
variables that the code declares. What the code asks of the Lua stack is left open: a `LuaCall` answers
every check of every overload and slot by itself, so a statement about all calls covers all answers.

    if (a && b) { .. } else if (c) { .. } else { .. }     a `Chain`: the first arm whose test holds runs
    luaL_error(..)                                         does not return: the run ends in `raised`
    a variable that is not declared, `if ()`               no program: the run ends in `malformed`
-/

namespace LuaGlue

/-- Where a check of an argument stands: the overload it is made for, and the slot. -/
structure Site where
  overload : Nat
  slot : Nat
  deriving DecidableEq, Repr

/-! ### Tests -/

/-- What a test is joined of. -/
inductive Operand where
  /-- So many values are on the Lua stack. -/
  | stackHolds (count : Nat)
  /-- The coarse check of an argument. -/
  | validated (site : Site) (check : String)
  /-- The finer check of a slot, as its variable holds it. -/
  | settled (slot : Nat)
  /-- More than one overload was collected. -/
  | several
  /-- No overload was collected. -/
  | unmatched
  /-- The overload at this index is the one that was chosen. -/
  | chosen (index : Nat)
  deriving DecidableEq, Repr

/-- The operand as text. -/
def Operand.text : Operand → String
  | .stackHolds count => s!"(num_params_on_stack == {count})"
  | .validated _ check => s!"({check})"
  | .settled slot => Candidate.condition slot
  | .several => "matching_overloads.size() > 1"
  | .unmatched => "matching_overloads.empty()"
  | .chosen index => s!"selected_overload == {index}"

/-- A test at an indentation: the operands joined by `&&`, each but the first on a line of its own. -/
def testText (indent : Nat) (operands : List Operand) : String :=
  "if (" ++ Text.separated (" &&\n" ++ Text.blanks (indent + 4)) (operands.map Operand.text) ++ ")"

/-! ### Statements -/

mutual

/-- A statement. -/
inductive Stmt where
  /-- The set of the overloads that are collected. -/
  | declareMatching
  /-- A variable that nothing reads. -/
  | declareCount
  /-- The number of values on the Lua stack is kept. -/
  | countParams
  /-- The finer check of an argument is made and kept. -/
  | settle (site : Site) (check : Tiebreak)
  | collect (index : Nat)
  /-- `luaL_error`. -/
  | raise (message : String)
  | throwEmpty
  /-- The first overload of the set is chosen. -/
  | select
  /-- The arguments of an overload are read, and the native function is called. -/
  | perform (layout : Layout) (extractions : List Extraction) (tail : Option CallTail)
  | choose (chain : Chain)
  /-- A lambda that is called where it stands; its result is kept under these marks. -/
  | invoke (marks : Option String) (body : List Stmt)
  | blank

/-- The arms of an `if`, from the first one or from a later one on. -/
inductive Chain where
  | done
  | otherwise (body : List Stmt)
  | arm (test : List Operand) (body : List Stmt) (rest : Chain)

end

mutual

/-- The statement at an indentation. -/
def Stmt.text (indent : Nat) : Stmt → String
  | .declareMatching => Text.line indent "std::unordered_set<int> matching_overloads\x7b\x7d;"
  | .declareCount => Text.line indent "int num_matching_overloads\x7b\x7d;"
  | .countParams => Text.line indent "auto num_params_on_stack = lua_gettop(lua_state);"
  | .settle site check =>
    Text.line indent s!"bool {Candidate.condition site.slot} = [=]() \x7b" ++ check.render ++ "\n"
      ++ Text.line indent "\x7d();"
  | .collect index => Text.line indent s!"matching_overloads.emplace({index});"
  | .raise message => Text.line indent s!"luaL_error(lua_state, \"{message}\");"
  | .throwEmpty => Text.line indent "throw std::runtime_error\x7b\"\"\x7d;"
  | .select => Text.line indent "auto selected_overload = *matching_overloads.begin();"
  | .perform layout extractions tail =>
    Extraction.renderAll layout extractions ++ ((tail.map (·.render layout)).getD "")
  | .choose chain => chain.text indent ""
  | .invoke marks body =>
    Text.line indent s!"{NativeCall.capture marks}[=]() \x7b" ++ Stmt.textAll (indent + 4) body
      ++ Text.line indent "\x7d();"
  | .blank => "\n"

/-- The statements one after another. -/
def Stmt.textAll (indent : Nat) : List Stmt → String
  | [] => ""
  | s :: rest => s.text indent ++ Stmt.textAll indent rest

/-- The arms, the first one after this word. -/
def Chain.text (indent : Nat) (word : String) : Chain → String
  | .done => ""
  | .otherwise body =>
    Text.line indent "else" ++ Text.line indent "\x7b" ++ Stmt.textAll (indent + 4) body
      ++ Text.line indent "\x7d"
  | .arm test body rest =>
    Text.line indent (word ++ testText indent test) ++ Text.line indent "\x7b"
      ++ Stmt.textAll (indent + 4) body ++ Text.line indent "\x7d" ++ rest.text indent "else "

end

/-! ### Runs -/

/-- A call from Lua, as far as the generated code asks about it. -/
structure LuaCall where
  /-- The number of values on the Lua stack. -/
  stack : Nat
  /-- The answer to the coarse check that is made at a site. -/
  validates : Site → String → Bool
  /-- The answer to the finer check that is made at a site. -/
  settles : Site → Tiebreak → Bool
  /-- The element that the iteration over a set begins with. -/
  first : Finset Nat → Nat
  /-- It is an element of the set. -/
  first_mem : ∀ s, s.Nonempty → first s ∈ s

/-- How a run ends early. -/
inductive Halt where
  /-- A Lua error of this text. -/
  | raised (message : String)
  /-- The text is no program. -/
  | malformed
  deriving DecidableEq, Repr

/-- The variables of the generated code, each once it is declared, and what has been done. -/
structure Machine where
  counted : Option Nat := none
  matching : Option (Finset Nat) := none
  /-- The outcomes of the finer checks, by slot. -/
  outcomes : Nat → Option Bool := fun _ => none
  selected : Option Nat := none
  /-- The arguments that were read and the calls that were made, in order. -/
  performed : List (List Extraction × Option CallTail) := []

/-- The value of an operand, unless it reads a variable that is not declared. -/
def Operand.eval (call : LuaCall) (m : Machine) : Operand → Option Bool
  | .stackHolds count => m.counted.map (· == count)
  | .validated site check => some (call.validates site check)
  | .settled slot => m.outcomes slot
  | .several => m.matching.map (1 < ·.card)
  | .unmatched => m.matching.map (· = ∅)
  | .chosen index => m.selected.map (· == index)

/-- The value of a test: from the left, up to the first operand that does not hold. A test without
operands is none. -/
def evalTest (call : LuaCall) (m : Machine) : List Operand → Option Bool
  | [] => none
  | [o] => o.eval call m
  | o :: next :: rest =>
    match o.eval call m with
    | some true => evalTest call m (next :: rest)
    | outcome => outcome

/-- The state after a block: what was declared inside it is gone. -/
def Machine.leave (inside outside : Machine) : Machine := { inside with outcomes := outside.outcomes }

mutual

/-- The state after a statement. -/
def Stmt.run (call : LuaCall) (m : Machine) : Stmt → Except Halt Machine
  | .declareMatching => .ok { m with matching := some ∅ }
  | .declareCount | .blank => .ok m
  | .countParams => .ok { m with counted := some call.stack }
  | .settle site check =>
    .ok { m with outcomes := Function.update m.outcomes site.slot (some (call.settles site check)) }
  | .collect index =>
    match m.matching with
    | some s => .ok { m with matching := some (insert index s) }
    | none => .error .malformed
  | .raise message => .error (.raised message)
  | .throwEmpty => .error (.raised "")
  | .select =>
    match m.matching with
    | some s => if s = ∅ then .error .malformed else .ok { m with selected := some (call.first s) }
    | none => .error .malformed
  | .perform _ extractions tail => .ok { m with performed := m.performed ++ [(extractions, tail)] }
  | .choose chain => chain.run call m
  | .invoke _ body => Stmt.runAll call m body

/-- The state after statements one after another. -/
def Stmt.runAll (call : LuaCall) (m : Machine) : List Stmt → Except Halt Machine
  | [] => .ok m
  | s :: rest =>
    match s.run call m with
    | .ok m => Stmt.runAll call m rest
    | .error halt => .error halt

/-- The state after the first arm whose test holds. -/
def Chain.run (call : LuaCall) (m : Machine) : Chain → Except Halt Machine
  | .done => .ok m
  | .otherwise body => (Stmt.runAll call m body).map (·.leave m)
  | .arm test body rest =>
    match evalTest call m test with
    | some true => (Stmt.runAll call m body).map (·.leave m)
    | some false => rest.run call m
    | none => .error .malformed

end

/-! ### Running statements in sequence -/

theorem runAll_append (call : LuaCall) (m : Machine) (ss ts : List Stmt) :
    Stmt.runAll call m (ss ++ ts) = (Stmt.runAll call m ss).bind fun m => Stmt.runAll call m ts := by
  induction ss generalizing m with
  | nil => rfl
  | cons s ss ih =>
    rw [List.cons_append, Stmt.runAll, Stmt.runAll]
    cases s.run call m with
    | ok m' => exact ih m'
    | error halt => rfl

theorem textAll_append (indent : Nat) (ss ts : List Stmt) :
    Stmt.textAll indent (ss ++ ts) = Stmt.textAll indent ss ++ Stmt.textAll indent ts := by
  induction ss with
  | nil => simp [Stmt.textAll]
  | cons s ss ih => rw [List.cons_append, Stmt.textAll, Stmt.textAll, ih, String.append_assoc]

/-- A test whose variables are all declared holds when each operand does. -/
theorem evalTest_eq {call : LuaCall} {m : Machine} {operands : List Operand} (hne : operands ≠ [])
    (h : ∀ o ∈ operands, (o.eval call m).isSome) :
    evalTest call m operands = some (operands.all fun o => o.eval call m == some true) := by
  induction operands with
  | nil => exact absurd rfl hne
  | cons o rest ih =>
    obtain ⟨value, ho⟩ := Option.isSome_iff_exists.1 (h o List.mem_cons_self)
    cases rest with
    | nil => cases value <;> simp [evalTest, ho]
    | cons next rest =>
      have hrest := ih (List.cons_ne_nil _ _) fun p hp => h p (List.mem_cons_of_mem _ hp)
      rw [evalTest, ho]
      cases value with
      | true => simp [hrest, ho]
      | false => simp [ho]

end LuaGlue
