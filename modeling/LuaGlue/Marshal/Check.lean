import LuaGlue.Cxx.Type
import LuaGlue.Text.Lines

/-!
Checks on a value of the Lua stack, as generated code makes them.

`validate` is the coarse check: could the value be read as this type at all? `tiebreak` is the finer
one that settles which of several overloads is meant, when their coarse checks all hold. Only a class
has a finer check: the metatable of the value must be one of those convertible to the class.
-/

namespace LuaGlue

/-- The userdata, light or full, that a pointer or reference is read from. -/
def userdataCheck (slot : Int) : String :=
  s!"lua_islightuserdata(lua_state, {slot}) || lua_isuserdata(lua_state, {slot})"

/-- The same, or nil. -/
def nullableCheck (slot : Int) : String :=
  s!"lua_islightuserdata(lua_state, {slot}) || lua_isnil(lua_state, {slot}) || lua_isuserdata(lua_state, {slot})"

/-- The expression that says whether the value in a slot can be read as this type. -/
def CxxType.validate (slot : Int) : CxxType → String
  | .void m =>
    if m.isReference then userdataCheck slot
    else if m.isPointer then nullableCheck slot
    else s!"lua_isnil(lua_state, {slot})"
  | .numeric _ m =>
    if m.isPointer then nullableCheck slot
    else if m.isReference then userdataCheck slot
    else s!"lua_isnumber(lua_state, {slot})"
  | .bool _ => s!"lua_isboolean(lua_state, {slot})"
  | .text _ _ => s!"lua_isstring(lua_state, {slot})"
  | .enum _ _ => s!"lua_isinteger(lua_state, {slot})"
  | .record _ m =>
    if m.isPointer then s!"lua_isuserdata(lua_state, {slot}) || lua_isnil(lua_state, {slot})"
    else s!"lua_isuserdata(lua_state, {slot})"
  | .function _ _ _ _ =>
    s!"lua_isfunction(lua_state, {slot}) || lua_isuserdata(lua_state, {slot}) || lua_isinteger(lua_state, {slot}) || lua_isnil(lua_state, {slot})"
  | .array _ _ _ => s!"lua_isuserdata(lua_state, {slot})"

/-- The finer check of one argument. -/
inductive Tiebreak where
  /-- Nothing more to check. -/
  | holds
  /-- The metatable of the value must be convertible to the class with this tag. -/
  | convertible (tag : String) (slot : Int)
  deriving DecidableEq, Repr

/-- The finer check of a value as this type. -/
def CxxType.tiebreak (slot : Int) : CxxType → Tiebreak
  | .record r _ => .convertible r.tag slot
  | _ => .holds

/-- The body of the lambda that makes the check. -/
def Tiebreak.render : Tiebreak → String
  | .holds => Text.openLines 16 ["return true;"]
  | .convertible tag slot =>
    Text.openLines 16
      ["bool matches_overload\x7b\x7d;",
       s!"if (lua_isuserdata(lua_state, {slot}))",
       "\x7b",
       s!"    lua_getmetatable(lua_state, {slot});",
       "    lua_pushliteral(lua_state, \"__name\");",
       "    lua_rawget(lua_state, -2);",
       "    auto metatable_name = std::string\x7blua_tostring(lua_state, -1)\x7d;",
       s!"    if (convertible_to_{tag}.contains(metatable_name))",
       "    \x7b",
       "        matches_overload = true;",
       "    \x7d",
       "\x7d",
       "else // value is nil (treat as nullptr)",
       "\x7b",
       "    matches_overload = true;",
       "\x7d",
       "if (matches_overload)",
       "\x7b",
       "    return true;",
       "\x7d",
       "else",
       "\x7b",
       "    return false;",
       "\x7d"]

end LuaGlue
