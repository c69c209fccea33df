import LuaGlue.Binding.Registry
import LuaGlue.Text.Lines

/-!
What the heap object extension adds to generated code: the short name of each class in its metatable,
and two tables from type names to the functions that wrap raw memory as an object of the type.
-/

namespace LuaGlue

namespace HeapObjects

/-- A class name without the first of the configured beginnings that it has; a name that is nothing
else stays whole. -/
def shortName (h : HeapObjects) (name : String) : String :=
  let short? := h.stripped.findSome? fun start =>
    if start.toList.isPrefixOf name.toList then
      some (String.ofList (name.toList.drop start.length))
    else none
  match short? with
  | some short => if short.isEmpty then name else short
  | none => name

/-- The statements that put the short name into the metatable of a class. -/
def renderMetatableField (h : HeapObjects) (c : BoundClass) : String :=
  Text.lines 4
    [s!"lua_pushliteral(lua_state, \"{h.nameField}\");",
     s!"lua_pushliteral(lua_state, \"{h.shortName c.name}\");",
     "lua_rawset(lua_state, -3);"] ++ "\n"

/-- The line that opens a table from names to functions. -/
def openTable (name : String) : String :=
  Text.line 0 s!"inline std::unordered_map<std::string, void (*)(lua_State*, void*, uint32_t)> {name} \x7b"

/-- The entry of a class under a name. -/
def renderEntry (name : String) (c : BoundClass) : String :=
  Text.line 4 s!"\x7b\"{name}\", &lua_Userdata_to_lua_from_heap<\"{c.metatable}\", {c.qualified}>\x7d,"

/-- The entry of a numeric type. -/
def renderNumericEntry (n : Numeric) : String :=
  Text.line 4 s!"\x7b\"{n.cxxName}\", &lua_{n.cxxName}_to_lua_from_heap\x7d,"

/-- The two tables, for the classes of a state file. -/
def renderTables (h : HeapObjects) (classes : List BoundClass) : String :=
  openTable "lua_type_name_to_lua_object_from_heap"
    ++ Text.line 4 "// Custom types."
    ++ String.join (classes.map fun c => renderEntry c.qualified c)
    ++ "\n" ++ Text.line 4 "// Built-in types."
    ++ String.join (Numeric.all.map renderNumericEntry)
    ++ Text.line 0 "\x7d;" ++ "\n"
    ++ openTable "lua_short_type_name_to_lua_object_from_heap"
    ++ Text.line 4 "// Custom types."
    ++ String.join (classes.map fun c => renderEntry (h.shortName c.name) c)
    ++ Text.line 0 "\x7d;" ++ "\n"

end HeapObjects

/-- The macro that defines the heap function of a numeric type, with its uses. -/
def renderNumericHeapFunctions : String :=
  Text.lines 0
    ["#define GenerateBuiltinToLuaFromHeapFunction(BuiltinType) \\",
     "inline auto lua_##BuiltinType##_to_lua_from_heap(lua_State* lua_state, void* item, uint32_t pointer_depth) -> void \\",
     "\x7b \\",
     "    auto* userdata = static_cast<BuiltinType*>(lua_newuserdatauv(lua_state, sizeof(BuiltinType*), 1)); \\",
     "    lua_pushinteger(lua_state, pointer_depth); \\",
     "    lua_setiuservalue(lua_state, -2, 1); \\",
     "    new(userdata) BuiltinType*\x7bstatic_cast<BuiltinType*>(item)\x7d; \\",
     "    luaL_getmetatable(lua_state, #BuiltinType\"Metatable\"); \\",
     "    lua_setmetatable(lua_state, -2); \\",
     "\x7d",
     ""]
    ++ Text.lines 4 (Numeric.all.map fun n => s!"GenerateBuiltinToLuaFromHeapFunction({n.cxxName})")
    ++ Text.line 0 "#undef GenerateBuiltinToLuaFromHeapFunction" ++ "\n"

end LuaGlue
