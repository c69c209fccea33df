import LuaGlue.Scope
import LuaGlue.Text.Lines

/-!
The part of generated code that publishes tables in Lua.

The code is a list of statements over calls into the Lua API. `ScopeWalk` opens the table of a scope,
making the tables on the way that are missing, and closes it again:

    scope ::A::B   open    global A (or a new table), field B (or a new table)
                   body    runs with the table of B on top of the stack
                   close   pops B, then pops A or publishes it as a global
-/

namespace LuaGlue

/-- A call into the Lua API. -/
inductive ApiCall where
  /-- Pushes the value of a global. -/
  | getGlobal (name : String)
  /-- Makes the value on top a global, and pops it. -/
  | setGlobal (name : String)
  | newTable
  | pushLiteral (text : String)
  | pushFunction (symbol : String)
  /-- Pushes an integer given as 64 bits. -/
  | pushInteger (value : Nat)
  /-- Replaces the key on top by its field in the table below. -/
  | getField
  /-- Stores the value on top under the key below it in the table below that, and pops both. -/
  | setField
  /-- Makes the table on top the metatable of the one below, and pops it. -/
  | setMetatable
  | pop (count : Nat)
  /-- Calls another function of the generated code. -/
  | helper (symbol : String)
  deriving DecidableEq, Repr

/-- An integer as a literal; one beyond the signed range is cast. -/
def integerLiteral (value : Nat) : String :=
  if value < Nat.pow 2 63 then s!"{value}" else s!"static_cast<lua_Integer>({value}ull)"

/-- The call as an expression. -/
def ApiCall.render : ApiCall → String
  | .getGlobal name => s!"lua_getglobal(lua_state, \"{name}\")"
  | .setGlobal name => s!"lua_setglobal(lua_state, \"{name}\")"
  | .newTable => "lua_newtable(lua_state)"
  | .pushLiteral text => s!"lua_pushliteral(lua_state, \"{text}\")"
  | .pushFunction symbol => s!"lua_pushcfunction(lua_state, &{symbol})"
  | .pushInteger value => s!"lua_pushinteger(lua_state, {integerLiteral value})"
  | .getField => "lua_rawget(lua_state, -2)"
  | .setField => "lua_rawset(lua_state, -3)"
  | .setMetatable => "lua_setmetatable(lua_state, -2)"
  | .pop count => s!"lua_pop(lua_state, {count})"
  | .helper symbol => s!"{symbol}(lua_state)"

/-- A statement. One flag of the generated code remembers whether a global was a table. -/
inductive TableStmt where
  | run (call : ApiCall)
  /-- Pushes a function that is given by its body. -/
  | pushLambda (body : String)
  /-- Makes the call and remembers whether it found a table. -/
  | remember (call : ApiCall)
  /-- Runs the calls unless a table was found. -/
  | unlessRemembered (calls : List ApiCall)
  /-- Makes the call, and runs the others unless it found a table. -/
  | unlessTable (call : ApiCall) (calls : List ApiCall)
  /-- Runs the first calls if a table was found, else the second. -/
  | ifRemembered (found missing : List ApiCall)
  /-- The same, with the two cases in the other order. -/
  | ifNotRemembered (missing found : List ApiCall)
  /-- A remark to the reader. -/
  | remark (text : String)
  /-- An empty line. -/
  | gap
  deriving DecidableEq, Repr

namespace TableStmt

/-- The variable of the flag. -/
def flag : String := "global_table_exists"

/-- Calls as a block in braces. -/
def renderBlock (indent : Nat) (calls : List ApiCall) : String :=
  Text.line indent "\x7b" ++ Text.lines (indent + 4) (calls.map fun call => call.render ++ ";")
    ++ Text.line indent "\x7d"

/-- The statement as text. -/
def render (indent : Nat) : TableStmt → String
  | .run call => Text.line indent (call.render ++ ";")
  | .pushLambda body =>
    Text.line indent "lua_pushcfunction(lua_state, ([](lua_State* lua_state) -> int \x7b" ++ body
      ++ Text.line indent "\x7d));"
  | .remember call => Text.line indent s!"bool {flag} = {call.render} == LUA_TTABLE;"
  | .unlessRemembered calls => Text.line indent s!"if (!{flag})" ++ renderBlock indent calls
  | .unlessTable call calls =>
    Text.line indent s!"if ({call.render} != LUA_TTABLE)" ++ renderBlock indent calls
  | .ifRemembered found missing =>
    Text.line indent s!"if ({flag})" ++ renderBlock indent found
      ++ Text.line indent "else" ++ renderBlock indent missing
  | .ifNotRemembered missing found =>
    Text.line indent s!"if (!{flag})" ++ renderBlock indent missing
      ++ Text.line indent "else" ++ renderBlock indent found
  | .remark text => Text.line indent text
  | .gap => "\n"

/-- Statements as text. -/
def renderAll (indent : Nat) (stmts : List TableStmt) : String :=
  String.join (stmts.map (render indent))

end TableStmt

namespace ScopeWalk

/-- Opens a global table, a new one if the global is no table. -/
def openGlobal (name : String) : List TableStmt :=
  [.remember (.getGlobal name), .unlessRemembered [.pop 1, .newTable], .gap]

/-- Opens a table inside the one on top, a new one if the field is no table. -/
def openField (name : String) : List TableStmt :=
  [.run (.pushLiteral name),
   .unlessTable .getField
     [.pop 1, .pushLiteral name, .newTable, .setField, .pushLiteral name, .getField],
   .gap]

/-- Opens the table of a scope that begins with a global table. -/
def openScope (outermost : String) (inner : List String) : List TableStmt :=
  openGlobal outermost ++ inner.flatMap openField

/-- Takes the inner tables off the stack. -/
def closeFields (inner : List String) : List TableStmt :=
  if inner.isEmpty then [.gap] else [.run (.pop inner.length), .gap]

/-- Takes the global table off the stack, or publishes a new one. -/
def closeGlobal (name : String) : TableStmt := .ifNotRemembered [.setGlobal name] [.pop 1]

/-- The same, with the two cases in the other order. -/
def closeGlobalFoundFirst (name : String) : TableStmt := .ifRemembered [.pop 1] [.setGlobal name]

/-- Runs statements with the table of a scope on top of the stack. -/
def within (outermost : String) (inner : List String) (body : List TableStmt)
    (close : String → TableStmt) : List TableStmt :=
  openScope outermost inner ++ body ++ closeFields inner ++ [close outermost]

/-- Publishes under a name in a scope what the statements push. -/
def publish (scope : List String) (name : String) (push : List TableStmt)
    (close : String → TableStmt) : List TableStmt :=
  match scope with
  | [] => push ++ [.run (.setGlobal name)]
  | outermost :: inner =>
    within outermost inner (.run (.pushLiteral name) :: push ++ [.run .setField]) close

end ScopeWalk

end LuaGlue
