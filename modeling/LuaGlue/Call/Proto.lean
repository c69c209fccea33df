import LuaGlue.Call.Wrapper

/-!
Native function pointers as Lua values.

A pointer is boxed in a `FunctionProto` userdata together with the Lua function that calls a pointer
of its type. `ProtoWrapper` is that function: it checks that its first argument is such a box, takes
it off the stack, and reads the other arguments as for any call.
-/

namespace LuaGlue

/-- The checks on the box, without the last statement that takes their values off the stack. -/
def protoChecks : List String :=
  [s!"luaL_argcheck(lua_state, lua_isuserdata(lua_state, 1), 1, \"{Messages.protoNotUserdata}\");",
   "lua_getmetatable(lua_state, 1);",
   "lua_pushliteral(lua_state, \"__name\");",
   "lua_rawget(lua_state, -2);",
   "auto metatable_name = std::string\x7blua_tostring(lua_state, -1)\x7d;",
   s!"if (metatable_name != \"FunctionProtoMetatable\") \x7b luaL_error(lua_state, \"{Messages.protoBadSelf}\"); \x7d",
   "auto function_proto = static_cast<FunctionProto*>(lua_touserdata(lua_state, 1));"]

/-- The statement that takes values off the stack. -/
def popStatement (count : Nat) : String := s!"lua_pop(lua_state, {count});"

/-- The Lua function that calls pointers of one function type. -/
structure ProtoWrapper where
  name : String
  arguments : CallCode
  arity : Nat
  /-- The function type as a pointer. -/
  pointerText : String
  /-- The marks of the result, unless there is none. -/
  resultMarks : Option String
  push : Option PushCode
  deriving DecidableEq, Repr

namespace ProtoWrapper

/-- A function of this type; its wrapper reads its arguments in the same way. -/
def functionOf (s : Signature) (name : String) : BoundFunction :=
  { BoundFunction.new name "" s.result with
    overloads := [s.params.map fun type => ⟨"", type⟩] }

/-- The wrapper for a function type. -/
def of (s : Signature) (registry : Registry) : Except Abort ProtoWrapper := do
  let name ← s.wrapperName
  let f := functionOf s name
  let arguments ← CallCode.of f registry false
  let pointerText ← s.text true
  return { name, arguments, arity := s.params.length, pointerText,
           resultMarks := NativeCall.marksOf s.result, push := ← f.pushResult registry }

/-- The call through the pointer. -/
def renderCall (w : ProtoWrapper) : String :=
  Text.line 8 s!"{NativeCall.capture w.resultMarks}std::bit_cast<{w.pointerText}>(function_proto->function_pointer)({NativeCall.arguments w.arity});"

/-- The definition. -/
def render (w : ProtoWrapper) : String :=
  s!"inline auto {w.name}(lua_State* lua_state) -> int\n\x7b\n"
    ++ Text.lines 4 ["try", "\x7b"]
    ++ Text.line 8 "// Prologue"
    ++ Text.lines 8 (protoChecks ++ [popStatement 2, "lua_remove(lua_state, 1);"]) ++ "\n"
    ++ Text.line 8 "// Native call"
    ++ w.arguments.render ++ "\n"
    ++ w.renderCall
    ++ renderReturn w.push ++ "\n"
    ++ renderCatch
    ++ "\x7d\n"

end ProtoWrapper

/-- The function that sets up the metatable of all boxes. -/
def renderProtoMetatable : String :=
  Text.lines 0 ["auto inline setup_FunctionProto(lua_State* lua_state) -> void", "\x7b"]
    ++ Text.lines 4
      ["luaL_newmetatable(lua_state, \"FunctionProtoMetatable\");",
       "lua_pushliteral(lua_state, \"__call\");",
       "lua_pushcfunction(lua_state, [](lua_State* lua_state) -> int \x7b"]
    ++ Text.lines 8 (protoChecks ++ [popStatement 2,
      "return function_proto->lua_wrapper_function_function_pointer(lua_state);"])
    ++ Text.lines 4
      ["\x7d);",
       "lua_rawset(lua_state, -3);",
       "lua_pushliteral(lua_state, \"__index\");",
       "lua_pushcfunction(lua_state, [](lua_State* lua_state) -> int \x7b"]
    ++ Text.lines 8 (protoChecks ++ [popStatement 2,
      "lua_remove(lua_state, 1);",
      "if (lua_isstring(lua_state, 1))",
      "\x7b",
      "    auto member_name = std::string\x7blua_tostring(lua_state, 1)\x7d;",
      "    if (member_name == \"GetFunctionAddress\")",
      "    \x7b",
      "        lua_pushcfunction(lua_state, [](lua_State* lua_state) -> int \x7b"])
    ++ Text.lines 20 (protoChecks ++ [popStatement 3,
      "lua_pushinteger(lua_state, std::bit_cast<lua_Integer>(function_proto->function_pointer));",
      "return 1;"])
    ++ Text.lines 8
      ["        \x7d);",
       "        return 1;",
       "    \x7d",
       "    else",
       "    \x7b",
       "        return 0;",
       "    \x7d",
       "\x7d",
       "else",
       "\x7b",
       "    return 0;",
       "\x7d"]
    ++ Text.lines 4 ["\x7d);", "lua_rawset(lua_state, -3);", "lua_pop(lua_state, 1);"]
    ++ Text.line 0 "\x7d"

end LuaGlue
