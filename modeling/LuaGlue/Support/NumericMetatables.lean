import LuaGlue.Cxx.Numeric
import LuaGlue.Text.Lines

/-!
The metatables of the numeric types, with which a script reads and writes raw memory.

Three macros of the preprocessor define a metatable; each is given as its lines. They are used once
for every numeric type and undefined at the end.
-/

namespace LuaGlue.Support

/-- A line that the next one continues: a backslash stands in the column of this width. -/
def continuedLine (width : Nat) (text : String) : String :=
  text ++ Text.blanks (width - text.length) ++ "\\"

/-- A macro: its head, its continued lines, and its last line. -/
def macroLines (head : String) (headWidth : Nat) (body : List String) (last : String) :
    List String :=
  continuedLine headWidth head :: body.map (continuedLine 148) ++ [last, ""]

/-- Finds the number that the first argument stands for. -/
def numericSelf : List String :=
  macroLines "#define NUMERICAL_METATABLE_GET_SELF(Type)" 130
    ["    luaL_argcheck(lua_state, lua_isuserdata(lua_state, 1), 1, \"first param was not userdata\");",
     "    lua_getiuservalue(lua_state, 1, 1);",
     "    int pointer_depth = lua_tointeger(lua_state, -1);",
     "    bool is_pointer = pointer_depth > 0;",
     "    lua_getmetatable(lua_state, 1);",
     "    lua_pushliteral(lua_state, \"__name\");",
     "    lua_rawget(lua_state, -2);",
     "    auto metatable_name = std::string\x7blua_tostring(lua_state, -1)\x7d;",
     "    auto bad_self_error_message = std::format(\"self was '\x7b\x7d', expected '\"#Type\"Metatable' or derivative\", metatable_name);",
     "    luaL_argcheck(lua_state, metatable_name == #Type\"Metatable\", 1, bad_self_error_message.c_str());",
     "    lua_pop(lua_state, 3);",
     "    Type** self_container\x7b\x7d;",
     "    Type* self\x7b\x7d;",
     "    if (is_pointer)",
     "    \x7b",
     "        auto* outer_most_container = lua_touserdata(lua_state, 1);",
     "        self_container = static_cast<Type**>(deref(outer_most_container, pointer_depth - 1));",
     "        self = *self_container;",
     "    \x7d",
     "    else",
     "    \x7b",
     "        self = static_cast<Type*>(lua_touserdata(lua_state, 1));",
     "    \x7d",
     "    lua_remove(lua_state, 1);",
     "    \x7b",
     "        luaL_argcheck(lua_state, self, 1, \"self was nullptr\");"]
    "    \x7d"

/-- Assigns to the number. -/
def numericAssign : List String :=
  macroLines "#define INTEGRAL_NEWINDEX_METAMETHOD_BODY(Type, IsFunction, ToFunction)" 148
    ["        NUMERICAL_METATABLE_GET_SELF(Type)",
     "",
     "        if (IsFunction(lua_state, 1))",
     "        \x7b",
     "            *static_cast<Type*>(self) = ToFunction(lua_state, 1);",
     "        \x7d",
     "        else",
     "        \x7b",
     "            luaL_argerror(lua_state, 1, \"Invalid argument for 'Set'\");",
     "        \x7d"]
    "        return 0;"

/-- Registers the metatable of a numeric type. -/
def numericRegister : List String :=
  macroLines "#define REGISTER_NUMERICAL_METATABLE(Type, PushFunction, IsFunction, ToFunction)" 148
    ["    luaL_newmetatable(lua_state, #Type\"Metatable\");",
     "    lua_pushliteral(lua_state, \"__index\");",
     "    auto Type##_my_index = [](lua_State* lua_state) -> int \x7b",
     "        NUMERICAL_METATABLE_GET_SELF(Type)",
     "",
     "        if (lua_isstring(lua_state, -1))",
     "        \x7b",
     "            auto index = std::string_view\x7blua_tostring(lua_state, -1)\x7d;",
     "            lua_pop(lua_state, 1);",
     "            if (index == \"Get\" || index == \"get\")",
     "            \x7b",
     "                lua_pushcfunction(lua_state, [](lua_State* lua_state) \x7b",
     "                    NUMERICAL_METATABLE_GET_SELF(Type)",
     "                    PushFunction(lua_state, *self);",
     "                    return 1;",
     "                \x7d);",
     "                return 1;",
     "            \x7d",
     "            else if (index == \"Set\" || index == \"set\")",
     "            \x7b",
     "                lua_pushcfunction(lua_state, [](lua_State* lua_state) \x7b",
     "                    INTEGRAL_NEWINDEX_METAMETHOD_BODY(Type, IsFunction, ToFunction)",
     "                \x7d);",
     "                return 1;",
     "            \x7d",
     "        \x7d",
     "",
     "        return 0;",
     "    \x7d;",
     "    lua_pushcfunction(lua_state, Type##_my_index);",
     "    lua_rawset(lua_state, -3);"]
    "    lua_settop(lua_state, 0);"

/-- The use of the last macro for a numeric type. -/
def registerLine (n : Numeric) : String :=
  let kind := if n.isFloating then "number" else "integer"
  s!"    REGISTER_NUMERICAL_METATABLE({n.cxxName}, lua_push{kind}, lua_is{kind}, lua_to{kind})"

/-- The code that registers all numeric metatables. -/
def numericMetatables : String :=
  Text.lines 0 <|
    numericSelf ++ numericAssign ++ numericRegister
      ++ "    lua_settop(lua_state, 0);" :: Numeric.all.map registerLine
      ++ ["", "#undef REGISTER_NUMERICAL_METATABLE", "#undef INTEGRAL_NEWINDEX_METAMETHOD_BODY",
          "#undef NUMERICAL_METATABLE_GET_SELF", ""]

end LuaGlue.Support
