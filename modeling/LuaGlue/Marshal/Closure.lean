import LuaGlue.Marshal.Check
import LuaGlue.Marshal.Retrieve
import LuaGlue.Marshal.Push

/-!
A Lua function as a native function: the lambda that calls back into Lua.

The lambda pushes the function and its own arguments, calls, and reads the result. A closure captures
what it needs by value. A plain function pointer cannot capture, so the Lua state and the reference
to the Lua function are kept in a static stack of saved parameters, which grows by one entry with each
call and is reset after it (`resetSaved`).
-/

namespace LuaGlue

/-- A type as the head of a lambda spells it. -/
structure SpelledType where
  constness : String
  name : String
  marks : String
  deriving DecidableEq, Repr

/-- The type as text. -/
def SpelledType.render (t : SpelledType) : String := t.constness ++ t.name ++ t.marks

/-- How the head of a lambda spells this type. -/
def CxxType.spelled (t : CxxType) : Except Abort SpelledType := do
  return { constness := t.constness, name := ← t.cxxName, marks := t.marks }

/-- How a lambda reads the result of the Lua function. -/
structure LambdaResult where
  /-- Is the value on top of the stack of the right type? -/
  check : String
  /-- The value read. -/
  value : String
  /-- The type whose default value is returned otherwise. -/
  fallback : String
  deriving DecidableEq, Repr

/-- The native function made of the Lua function in a slot. -/
structure Closure where
  slot : Nat
  hasStorage : Bool
  params : List SpelledType
  result : SpelledType
  /-- The code that pushes each argument. -/
  arguments : List PushCode
  /-- Nothing, when the function has no result. -/
  outcome : Option LambdaResult
  /-- The function type as a pointer. -/
  pointerText : String
  /-- The function type itself. -/
  plainText : String
  deriving DecidableEq, Repr

namespace Closure

/-- What the lambda writes in front of `lua_state` and of the function reference. -/
def qualifier (slot : Nat) (hasStorage : Bool) : String :=
  if hasStorage then "" else s!"lambda_params_{slot}."

/-- The name of a parameter of the lambda. -/
def argumentName (index : Nat) : String := s!"lambda_param_{index + 1}"

/-- The closure for a function type. -/
def ofSignature (s : Signature) (slot : Nat) (registry : Registry) : Except Abort Closure := do
  let params ← s.params.mapM (·.spelled)
  let result ← s.result.spelled
  let arguments ← s.params.zipIdx.mapM fun (t, i) =>
    t.push (argumentName i) (qualifier slot s.hasStorage) registry
  let outcome ←
    if s.result.isVoidValue then pure none
    else do
      let value ← s.result.retrieve (-1) registry
      pure (some { check := s.result.validate (-1), value, fallback := ← s.result.cxxName })
  return { slot, hasStorage := s.hasStorage, params, result, arguments, outcome,
           pointerText := ← s.text true, plainText := ← s.text false }

/-- The number of results the Lua function is asked for. -/
def resultCount (c : Closure) : Nat := if c.outcome.isSome then 1 else 0

/-- The struct and the static variables that save the parameters of a function pointer. -/
def renderSaved (slot : Nat) : String :=
  s!"struct LambdaParams_{slot}\n" ++ Text.lines 8
    ["\x7b",
     "    lua_State* lua_state;",
     s!"    int param_inter_{slot};",
     "\x7d;",
     s!"static std::vector<LambdaParams_{slot}> static_lambda_params_{slot}\x7b\x7d;",
     s!"static LambdaParams_{slot} lambda_params_{slot}\x7b\x7d;",
     s!"lambda_params_{slot} = static_lambda_params_{slot}.emplace_back(LambdaParams_{slot}\x7blua_state, param_inter_{slot}\x7d);"]

/-- The head of the lambda, up to its opening brace. -/
def renderHead (c : Closure) : String :=
  let capture := if c.hasStorage then "=" else "&"
  let params := c.params.zipIdx.map fun (t, i) => t.render ++ " " ++ argumentName i
  s!"auto param_function_ref_{c.slot} = [{capture}](" ++ Text.separated ", " params
    ++ ") -> " ++ c.result.render ++ " \x7b\n"

/-- The code that pushes one argument, in a block of its own. -/
def renderArgument (code : PushCode) : String :=
  Text.line 12 "\x7b" ++ code.render ++ ";\n" ++ Text.line 12 "\x7d" ++ "\n"

/-- The code that reads the result. -/
def renderOutcome (r : LambdaResult) : String :=
  Text.lines 12
    [s!"if ({r.check})",
     "\x7b",
     s!"    return {r.value};",
     "\x7d",
     "else",
     "\x7b",
     s!"    return {r.fallback}\x7b\x7d;",
     "\x7d"]

/-- The lambda. -/
def renderLambda (c : Closure) : String :=
  let q := qualifier c.slot c.hasStorage
  c.renderHead
    ++ Text.lines 12
      [s!"if (lua_rawgeti({q}lua_state, LUA_REGISTRYINDEX, {q}param_inter_{c.slot}) != LUA_TFUNCTION)",
       "\x7b",
       s!"    luaL_error({q}lua_state, std::format(\"Expected 'function' got '\x7b\x7d'\", lua_typename({q}lua_state, -1)).c_str());",
       "\x7d",
       ""]
    ++ String.join (c.arguments.map renderArgument)
    ++ Text.line 8 ""
    ++ Text.lines 12
      [s!"if (int status = lua_pcall({q}lua_state, {c.arguments.length}, {c.resultCount}, 0); status != LUA_OK)",
       "\x7b",
       s!"    throw std::runtime_error(std::format(\"lua_pcall returned \x7b\x7d\", resolve_status_message({q}lua_state, status)));",
       "\x7d"]
    ++ Text.line 8 ""
    ++ (c.outcome.map renderOutcome).getD ""
    ++ Text.line 8 "\x7d;"

/-- The declaration of the parameter: a boxed pointer, an address, nil or the lambda. -/
def renderParam (c : Closure) : String :=
  let p := c.slot
  let type := if c.hasStorage then s!"std::function<{c.plainText}>" else c.pointerText
  Text.lines 4
    [s!"using CXXFuncSignature = {type};",
     s!"CXXFuncSignature param_{p};",
     s!"if (lua_isuserdata(lua_state, {p}))",
     "\x7b",
     s!"    auto function_proto = static_cast<FunctionProto*>(luaL_checkudata(lua_state, {p}, \"FunctionProtoMetatable\"));",
     s!"    param_{p} = std::bit_cast<{c.pointerText}>(function_proto->function_pointer);",
     "\x7d",
     s!"else if (lua_isinteger(lua_state, {p}))",
     "\x7b",
     s!"    param_{p} = std::bit_cast<{c.pointerText}>(lua_tointeger(lua_state, {p}));",
     "\x7d",
     s!"else if (lua_isnil(lua_state, {p}))",
     "\x7b",
     s!"    param_{p} = std::bit_cast<{c.pointerText}>(nullptr);",
     "\x7d",
     "else",
     "\x7b",
     if c.hasStorage then s!"        param_{p} = param_function_ref_{p};"
     else s!"            param_{p} = fnptr<{c.plainText}>(param_function_ref_{p});",
     "\x7d"]

/-- The statements that turn the reference to the Lua function into the native parameter. -/
def render (c : Closure) : String :=
  (if c.hasStorage then "" else renderSaved c.slot) ++ c.renderLambda ++ c.renderParam

/-- The code that drops the saved parameters of a slot once the native call is over. -/
def resetSaved (slot : Nat) : String :=
  Text.lines 8
    [s!"static_lambda_params_{slot}.pop_back();",
     s!"if (!static_lambda_params_{slot}.empty())",
     "\x7b",
     s!"    lambda_params_{slot} = static_lambda_params_{slot}.back();",
     "\x7d"]

end Closure

end LuaGlue
