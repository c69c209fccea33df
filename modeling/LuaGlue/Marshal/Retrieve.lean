import LuaGlue.Binding.Registry
import LuaGlue.Text.Lines

/-!
Reading a value of the Lua stack, as generated code does it after the check has held.

A class is not read by an expression of its own: `UserdataFetch` checks and extracts in one step,
and takes nil for a null pointer.
-/

namespace LuaGlue

/-- The scope in which generated code finds the class: that of its registration, or the one it was
written with when it has only been named. -/
def Registry.recordScope (registry : Registry) (r : ClassRef) : Except Abort String :=
  match registry.find? r.scope r.name with
  | some c => .ok c.scope
  | none => if r.forward.isSome then .ok r.scope else .error (.missingClass r.name)

/-- The reference that the Lua registry keeps of a function, or 0 for any other value. -/
def functionReference (slot : Int) : String :=
  "[&]() \x7b\n" ++ Text.lines 8
    [s!"if (lua_isfunction(lua_state, {slot}))",
     "\x7b",
     "    return luaL_ref(lua_state, LUA_REGISTRYINDEX);",
     "\x7d",
     "else",
     "\x7b",
     "    return 0;",
     "\x7d"] ++ "\x7d();\n"

/-- The expression that reads the value in a slot as this type. `void` by value has none. -/
def CxxType.retrieve (slot : Int) (registry : Registry) (t : CxxType) : Except Abort String :=
  match t with
  | .void m =>
    if m.isReference then .ok s!"*static_cast<void**>(lua_touserdata(lua_state, {slot}))"
    else if m.isPointer then
      .ok s!"lua_isnil(lua_state, {slot}) ? nullptr : lua_touserdata(lua_state, {slot})"
    else .error (t.unsupported "retrieve")
  | .numeric kind m =>
    let name := kind.cxxName
    .ok <|
      if m.isPointer then
        s!"static_cast<{t.constness}{name}*>(lua_isnil(lua_state, {slot}) ? nullptr : lua_touserdata(lua_state, {slot}))"
      else if m.isReference then
        s!"*static_cast<{t.constness}{name}*>(lua_touserdata(lua_state, {slot}))"
      else s!"static_cast<{name}>(lua_tonumber(lua_state, {slot}))"
  | .bool _ => .ok s!"lua_toboolean(lua_state, {slot})"
  | .text .narrow _ => .ok s!"std::string\x7blua_tostring(lua_state, {slot})\x7d"
  | .text _ _ => .ok s!"lua_tostring(lua_state, {slot})"
  | .enum name _ => .ok s!"static_cast<{name}>(lua_tointeger(lua_state, {slot}))"
  | .record r m => do
    let name := Scope.qualify (← registry.recordScope r) r.name
    let checked := s!"luaL_checkudata(lua_state, {slot}, \"{r.tag}Metatable\")"
    return if m.isPointer then
        s!"lua_isnil(lua_state, {slot}) ? nullptr : static_cast<{name}*>({checked})"
      else s!"*static_cast<{name}*>({checked})"
  | .function _ _ _ _ => .ok (functionReference slot)
  | .array names _ _ =>
    .ok s!"static_cast<{names.wrapper}*>(luaL_checkudata(lua_state, {slot}, \"{names.wrapperMetatable}\"))"

/-- The statement that checks and extracts an object of a class in one step. -/
structure UserdataFetch where
  slot : Int
  /-- Is the result bound as a reference? -/
  byReference : Bool
  /-- The tag of the class. -/
  tag : String
  /-- The type asked for. -/
  type : String
  deriving DecidableEq, Repr

/-- The statement, with its indentation and line feed. -/
def UserdataFetch.render (f : UserdataFetch) : String :=
  let mark := if f.byReference then "&" else ""
  Text.line 8 s!"auto{mark} param_{f.slot} = lua_util_userdata_Get<\"{f.tag}Metatable\", {f.type}, convertible_to_{f.tag}>(lua_state, {f.slot});"

/-- The one-step extraction, for a class. -/
def CxxType.fetch? (slot : Int) : CxxType → Option UserdataFetch
  | .record r m => some
    { slot, byReference := m.isReference, tag := r.tag, type := r.qualified ++ m.marks }
  | _ => none

end LuaGlue
