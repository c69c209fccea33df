import LuaGlue.Glue.Tables
import LuaGlue.Proofs.Lua.Store

/-!
What the statements that publish tables do when they run.

A call has the effect that the manual of Lua documents for it. A call that the manual gives no effect,
such as storing into a value that is no table, leads nowhere (`none`). Global variables are the fields
of one table, which is read and written like any other.

    stack, top first                     call                  stack after it
    rest                                 getGlobal name        _G[name], rest
    v, rest                              setGlobal name        rest                 _G[name] = v
    key, table t, rest                   getField              t[key], table t, rest
    v, key, table t, rest                setField              table t, rest        t[key] = v

A call of the generated code's own functions does what `helper` says.
-/

namespace LuaGlue

/-- The state of Lua as generated code sees it. -/
structure LuaState where
  /-- The values on the stack, the top first. -/
  stack : List LuaValue
  tables : LuaTables
  objects : Store LuaObject
  /-- The table of the global variables. -/
  globals : Nat
  /-- The metatables that have a name. -/
  named : String → Option Nat

/-- Does the name mean itself between the quotes of a literal? -/
def PlainName (name : String) : Prop := '"' ∉ name.toList ∧ '\\' ∉ name.toList

instance (name : String) : Decidable (PlainName name) := inferInstanceAs (Decidable (_ ∧ _))

/-- The number that the literal of an integer stands for: below the signed limit the number itself,
from there on the cast of one without sign. -/
def literalValue (value : Nat) : Int :=
  if value < Nat.pow 2 63 then value else (BitVec.ofNat 64 value).toInt

/-- Either way it is the number read as a two's complement. -/
theorem literalValue_eq (value : Nat) : literalValue value = (BitVec.ofNat 64 value).toInt := by
  unfold literalValue
  split
  · next h =>
    have hlt : value < 2 ^ 63 := h
    rw [BitVec.toInt_ofNat', Int.bmod_def]
    omega
  · rfl

namespace LuaState

variable (s : LuaState)

/-- One more value on top. -/
def push (v : LuaValue) : LuaState := { s with stack := v :: s.stack }

/-- The state with another stack and other tables. -/
def having (stack : List LuaValue) (tables : LuaTables) : LuaState := { s with stack, tables }

@[simp] theorem having_self : s.having s.stack s.tables = s := rfl

@[simp] theorem push_having (v : LuaValue) (stack : List LuaValue) (tables : LuaTables) :
    (s.having stack tables).push v = s.having (v :: stack) tables := rfl

/-- Is the value on top a table? -/
def topIsTable : Bool :=
  match s.stack with
  | .table _ :: _ => true
  | _ => false

@[simp] theorem topIsTable_having (v : LuaValue) (stack : List LuaValue) (tables : LuaTables) :
    (s.having (v :: stack) tables).topIsTable = v.table?.isSome := by
  cases v <;> rfl

/-- The metatable that a value stands for: nil for none. -/
def metatable? : LuaValue → Option (Option Nat)
  | .table id => some (some id)
  | .nil => some none
  | _ => none

end LuaState

/-- What a function of the generated code does. -/
abbrev Helper := String → LuaState → Option LuaState

/-- What a call does. -/
def ApiCall.exec (helper : Helper) (call : ApiCall) (s : LuaState) : Option LuaState :=
  match call, s.stack with
  | .getGlobal name, _ =>
    if PlainName name then some (s.push (s.tables.field s.globals (.text name))) else none
  | .setGlobal name, v :: rest =>
    if PlainName name then
      some { s with stack := rest, tables := s.tables.setField s.globals (.text name) v }
    else none
  | .newTable, _ => some { s.push (.table s.tables.count) with tables := s.tables.allot .empty }
  | .pushLiteral text, _ => if PlainName text then some (s.push (.text text)) else none
  | .pushFunction symbol, _ => some (s.push (.function symbol))
  | .pushInteger value, _ => some (s.push (.integer (literalValue value)))
  | .getField, key :: .table t :: rest => some { s with stack := s.tables.field t key :: .table t :: rest }
  | .setField, v :: key :: .table t :: rest =>
    if key = .nil then none else some { s with stack := .table t :: rest, tables := s.tables.setField t key v }
  | .setMetatable, v :: .table t :: rest =>
    (LuaState.metatable? v).map fun metatable =>
      { s with stack := .table t :: rest
               tables := s.tables.write t { s.tables.cell t with metatable } }
  | .pop count, stack => if count ≤ stack.length then some { s with stack := stack.drop count } else none
  | .helper symbol, _ => helper symbol s
  | _, _ => none

namespace ApiCall

variable (helper : Helper)

/-- What calls do, one after another. -/
def execAll (calls : List ApiCall) (s : LuaState) : Option LuaState :=
  calls.foldlM (fun s call => call.exec helper s) s

@[simp] theorem execAll_nil (s : LuaState) : execAll helper [] s = some s := rfl

@[simp] theorem execAll_cons (call : ApiCall) (rest : List ApiCall) (s : LuaState) :
    execAll helper (call :: rest) s = (call.exec helper s).bind (execAll helper rest) := by
  rw [execAll, List.foldlM_cons]
  rfl

variable (s : LuaState) (stack : List LuaValue) (m : LuaTables)

@[simp] theorem exec_getGlobal {name : String} (h : PlainName name) :
    (getGlobal name).exec helper (s.having stack m)
      = some (s.having (m.field s.globals (.text name) :: stack) m) := if_pos h

@[simp] theorem exec_setGlobal {name : String} (h : PlainName name) (v : LuaValue) :
    (setGlobal name).exec helper (s.having (v :: stack) m)
      = some (s.having stack (m.setField s.globals (.text name) v)) := if_pos h

@[simp] theorem exec_newTable :
    newTable.exec helper (s.having stack m) = some (s.having (.table m.count :: stack) (m.allot .empty)) := rfl

@[simp] theorem exec_pushLiteral {text : String} (h : PlainName text) :
    (pushLiteral text).exec helper (s.having stack m) = some (s.having (.text text :: stack) m) := if_pos h

@[simp] theorem exec_pushFunction (symbol : String) :
    (pushFunction symbol).exec helper (s.having stack m) = some (s.having (.function symbol :: stack) m) := rfl

@[simp] theorem exec_pushInteger (value : Nat) :
    (pushInteger value).exec helper (s.having stack m)
      = some (s.having (.integer (literalValue value) :: stack) m) := rfl

@[simp] theorem exec_getField (key : LuaValue) (t : Nat) :
    getField.exec helper (s.having (key :: .table t :: stack) m)
      = some (s.having (m.field t key :: .table t :: stack) m) := rfl

@[simp] theorem exec_setField (v : LuaValue) (key : String) (t : Nat) :
    setField.exec helper (s.having (v :: .text key :: .table t :: stack) m)
      = some (s.having (.table t :: stack) (m.setField t (.text key) v)) := rfl

@[simp] theorem exec_setMetatable (metatable t : Nat) :
    setMetatable.exec helper (s.having (.table metatable :: .table t :: stack) m)
      = some (s.having (.table t :: stack) (m.write t { m.cell t with metatable := some metatable })) := rfl

@[simp] theorem exec_pop {count : Nat} (h : count ≤ stack.length) :
    (pop count).exec helper (s.having stack m) = some (s.having (stack.drop count) m) := if_pos h

@[simp] theorem exec_helper (symbol : String) :
    (ApiCall.helper symbol).exec helper (s.having stack m) = helper symbol (s.having stack m) := rfl

end ApiCall

/-- A block of statements under way: the state of Lua, and the flag once it is declared. -/
structure BlockRun where
  lua : LuaState
  found : Option Bool

namespace TableStmt

variable (helper : Helper)

/-- What a statement does. A flag that is not declared yet cannot be read. -/
def exec (stmt : TableStmt) (b : BlockRun) : Option BlockRun :=
  match stmt with
  | .run call => (call.exec helper b.lua).map (⟨·, b.found⟩)
  | .pushLambda body => some ⟨b.lua.push (.lambda body), b.found⟩
  | .remember call => (call.exec helper b.lua).map fun s => ⟨s, some s.topIsTable⟩
  | .unlessRemembered calls =>
    match b.found with
    | some true => some b
    | some false => (ApiCall.execAll helper calls b.lua).map (⟨·, b.found⟩)
    | none => none
  | .unlessTable call calls =>
    (call.exec helper b.lua).bind fun s =>
      if s.topIsTable then some ⟨s, b.found⟩ else (ApiCall.execAll helper calls s).map (⟨·, b.found⟩)
  | .ifRemembered found missing | .ifNotRemembered missing found =>
    match b.found with
    | some true => (ApiCall.execAll helper found b.lua).map (⟨·, b.found⟩)
    | some false => (ApiCall.execAll helper missing b.lua).map (⟨·, b.found⟩)
    | none => none
  | .remark _ | .gap => some b

/-- What statements do, one after another. -/
def execAll (stmts : List TableStmt) (b : BlockRun) : Option BlockRun :=
  stmts.foldlM (fun b stmt => stmt.exec helper b) b

@[simp] theorem execAll_nil (b : BlockRun) : execAll helper [] b = some b := rfl

@[simp] theorem execAll_cons (stmt : TableStmt) (rest : List TableStmt) (b : BlockRun) :
    execAll helper (stmt :: rest) b = (stmt.exec helper b).bind (execAll helper rest) := by
  rw [execAll, List.foldlM_cons]
  rfl

theorem execAll_append (first rest : List TableStmt) (b : BlockRun) :
    execAll helper (first ++ rest) b = (execAll helper first b).bind (execAll helper rest) := by
  rw [execAll, List.foldlM_append]
  rfl

/-- A block of its own: the flag is declared inside it, if at all. -/
def execBlock (stmts : List TableStmt) (s : LuaState) : Option LuaState :=
  (execAll helper stmts ⟨s, none⟩).map (·.lua)

end TableStmt

end LuaGlue
