import LuaGlue.Glue.Construction
import LuaGlue.Glue.Heap
import LuaGlue.Glue.Members
import LuaGlue.Glue.Tables

/-!
The function that sets a class up in Lua.

It registers the metatable of the objects of the class, with a closure for member access and one for
each metamethod, and then publishes the class table, which holds the static functions and can be
called when the class has a constructor.
-/

namespace LuaGlue.ClassSetup

variable (registry : Registry) (c : BoundClass)

/-- The name of the function. -/
def functionName : String := s!"lua_setup_{c.tag}"

/-- The closure for member access: the member map first, then the `__index` metamethod. -/
def renderIndex : String :=
  let tag := c.tag
  Text.lines 4
    ["lua_pushliteral(lua_state, \"__index\");",
     "lua_pushcclosure(lua_state, [](lua_State* lua_state) -> int \x7b",
     "    if (!lua_isuserdata(lua_state, -2))",
     "    \x7b",
     "            lua_remove(lua_state, -1);",
     "            lua_remove(lua_state, -2);",
     s!"            luaL_error(lua_state, \"{Messages.memberWithoutSelf c.name}\");",
     "    \x7d"]
    ++ "\n"
    ++ Text.line 8 s!"luaL_argcheck(lua_state, lua_isstring(lua_state, -1), 2, \"{Messages.indexNotString}\");"
    ++ "\n"
    ++ Text.lines 8
      ["auto index = std::string_view\x7blua_tostring(lua_state, -1)\x7d;",
       s!"if (auto it = {tag}_member_functions.find(index.data()); it != {tag}_member_functions.end())",
       "\x7b",
       "    lua_pop(lua_state, 1);",
       "    lua_pushcfunction(lua_state, it->second);",
       "    return 1;",
       "\x7d"]
    ++ "\n"
    ++ c.renderSelfKept
    ++ Text.lines 8
      [s!"auto index_it = {tag}_metamethods.find(\"__index\");",
       s!"if (index_it == {tag}_metamethods.end()) \x7b return 0; \x7d",
       "return index_it->second(lua_state, self);"]
    ++ Text.lines 4 ["\x7d, 0);", "lua_rawset(lua_state, -3);"]
    ++ "\n"

/-- The closure for one metamethod. -/
def renderMetamethod (name : String) : String :=
  let tag := c.tag
  Text.lines 4
    [s!"lua_pushliteral(lua_state, \"{name}\");",
     "lua_pushcclosure(lua_state, [](lua_State* lua_state) -> int \x7b",
     "    if (!lua_isuserdata(lua_state, 1))",
     "    \x7b",
     "            lua_remove(lua_state, 1);",
     s!"            luaL_error(lua_state, \"{Messages.metamethodWithoutSelf name c.name}\");",
     "    \x7d"]
    ++ "\n"
    ++ c.renderSelfKept
    ++ Text.lines 8
      [s!"auto it = {tag}_metamethods.find(\"{name}\");",
       s!"if (it == {tag}_metamethods.end()) \x7b return 0; \x7d",
       "return it->second(lua_state, self);"]
    ++ Text.lines 4 ["\x7d, 0);", "lua_rawset(lua_state, -3);"]
    ++ "\n"

/-- The metamethods that get a closure of their own. -/
def closures : List String :=
  metamethodNames.filter fun name =>
    name != "__index" && (Members.metamethodWrapper registry c name).isSome

/-- The statements that fill the class table, which is on top of the stack. -/
def tableContents : List TableStmt :=
  (c.statics.values.flatMap fun f =>
    [.run (.pushLiteral f.name), .run (.pushFunction (Members.target registry c f)),
     .run .setField, .gap])
  ++ if c.constructor?.isSome then
      [.remark "// Metatable For Table -> START", .run (.helper c.dispatchName),
       .remark "// Metatable For Table -> END", .gap]
    else []

/-- The statements that publish the class table under the scope of the class in Lua. -/
def classTable : List TableStmt :=
  .remark "// Scopes -> START" ::
    ScopeWalk.publish (Scope.parts c.luaScope) c.name
      (.run .newTable :: .gap :: tableContents registry c) ScopeWalk.closeGlobalFoundFirst
    ++ [.remark "// Scopes -> END"]

/-- The part of the function that registers the metatable. -/
def renderMetatable : String :=
  Text.lines 4
    ["// Metatable For Userdata -> START",
     s!"luaL_newmetatable(lua_state, \"{c.metatable}\");"]
    ++ "\n"
    ++ Text.lines 4
      ["lua_pushliteral(lua_state, \"__cxx_name\");",
       s!"lua_pushliteral(lua_state, \"{c.qualified}\");",
       "lua_rawset(lua_state, -3);"]
    ++ "\n"
    ++ (match registry.patches.heap with
        | some heap => heap.renderMetatableField c
        | none => "")
    ++ renderIndex c
    ++ String.join ((closures registry c).map (renderMetamethod c))
    ++ Text.lines 4
      ["// Remove table from the stack now that we're done with it.",
       "lua_remove(lua_state, -1);",
       "// Metatable For Userdata -> END"]
    ++ "\n"

/-- The definition of the function. -/
def render : String :=
  Text.lines 0 [s!"inline auto {functionName c}(lua_State* lua_state) -> void", "\x7b"]
    ++ renderMetatable registry c
    ++ TableStmt.renderAll 4 (classTable registry c)
    ++ Text.line 0 "\x7d"

end LuaGlue.ClassSetup
