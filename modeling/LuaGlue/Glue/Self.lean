import LuaGlue.Binding.Class
import LuaGlue.Call.Wrapper

/-!
Finding the object that a member is called on.

Each class has one helper for this. It checks that the first argument is userdata whose metatable is
convertible to the class, follows the stored pointers, and gives the object, or what contains the
pointer to it.
-/

namespace LuaGlue.BoundClass

/-- The name of the helper of a class. -/
def selfHelper (c : BoundClass) : String :=
  LuaGlue.selfHelper s!"{Scope.identifier c.scope}__{c.name}"

/-- The set of metatables that are convertible to the class. -/
def convertibleSet (c : BoundClass) : String := s!"convertible_to_{c.tag}"

/-- The definition of the helper, without a line feed at its end. -/
def renderSelfHelper (c : BoundClass) : String :=
  let q := c.qualified
  Text.openLines 0
    [s!"template<typename ReturnType = {q}*, bool return_container_or_nullptr = false, bool pop_userdata = true>",
     s!"inline auto {c.selfHelper}(lua_State* lua_state) -> std::pair<bool, ReturnType>",
     "\x7b",
     s!"    luaL_argcheck(lua_state, lua_isuserdata(lua_state, 1), 1, \"{Messages.selfNotUserdata c.name}\");",
     "    lua_getiuservalue(lua_state, 1, 1);",
     "    int pointer_depth = lua_tointeger(lua_state, -1);",
     "    bool is_pointer = pointer_depth > 0;",
     "    lua_getmetatable(lua_state, 1);",
     "    lua_pushliteral(lua_state, \"__name\");",
     "    lua_rawget(lua_state, -2);",
     "    auto metatable_name = std::string\x7blua_tostring(lua_state, -1)\x7d;",
     s!"    auto bad_self_error_message = std::format(\"{Messages.badSelf c.tag}\", metatable_name);",
     s!"    luaL_argcheck(lua_state, {c.convertibleSet}.contains(metatable_name), 1, bad_self_error_message.c_str());",
     "    lua_pop(lua_state, 3);",
     s!"    {q}** self_container\x7b\x7d;",
     s!"    {q}* self\x7b\x7d;",
     "    if (is_pointer)",
     "    \x7b",
     "        auto* outer_most_container = lua_touserdata(lua_state, 1);",
     "        if (outer_most_container)",
     "        \x7b",
     s!"            self_container = static_cast<{q}**>(deref(outer_most_container, pointer_depth - 1));",
     "            if (self_container) \x7b self = *self_container; \x7d",
     "        \x7d",
     "    \x7d",
     "    else",
     "    \x7b",
     s!"        self = static_cast<{q}*>(lua_touserdata(lua_state, 1));",
     "    \x7d",
     "    if constexpr (pop_userdata)",
     "    \x7b",
     "        lua_remove(lua_state, 1);",
     "    \x7d",
     "    if constexpr (return_container_or_nullptr)",
     "    \x7b",
     "        if (is_pointer)",
     "        \x7b",
     "            return \x7bis_pointer, self_container\x7d;",
     "        \x7d",
     "        else",
     "        \x7b",
     s!"            luaL_argcheck(lua_state, self, 1, \"{Messages.nullSelf}\");",
     "            return \x7bis_pointer, std::bit_cast<ReturnType>(self)\x7d;",
     "        \x7d",
     "    \x7d",
     "    else",
     "    \x7b",
     s!"        luaL_argcheck(lua_state, self, 1, \"{Messages.nullSelf}\");",
     "        return \x7bis_pointer, self\x7d;",
     "    \x7d",
     "\x7d"]

/-- The statements that find the object and leave it on the Lua stack. -/
def renderSelfKept (c : BoundClass) : String :=
  Text.lines 8
    [s!"auto [_, self] = {c.selfHelper}<{c.qualified}*, false, false>(lua_state);",
     s!"if (!self) \x7b luaL_error(lua_state, \"{Messages.memberWithNullSelf c.name}\"); \x7d;"]

end LuaGlue.BoundClass
