import LuaGlue.Text.Lines

/-!
The helpers that generated code uses on objects: finding the native object behind userdata, the members
that every class has, and wrapping memory as an object.
-/

namespace LuaGlue.Support

/-- Follows a pointer so many times. -/
def dereference : List String :=
  ["inline auto deref(void* ptr, uint32_t num) -> void*",
   "\x7b",
   "    if (num == 0) \x7b return ptr; \x7d",
   "    void* final_ptr\x7bptr\x7d;",
   "    for (uint32_t i = 0; i < num; ++i)",
   "    \x7b",
   "        final_ptr = *static_cast<void**>(final_ptr);",
   "    \x7d",
   "    return final_ptr;",
   "\x7d"]

/-- Checks and extracts an object. -/
def userdataGet : List String :=
  ["template<StringLiteral self_target_metatable_name, typename UserdataFullType, std::unordered_set<std::string>& ConvertibleToMap>",
   "inline auto lua_util_userdata_Get(lua_State* lua_state, int param_stack_index) -> UserdataFullType",
   "\x7b",
   "    using UserdataType = std::remove_pointer_t<std::remove_reference_t<UserdataFullType>>;",
   "",
   "    UserdataType* obj_ptr\x7b\x7d;",
   "    if (lua_isuserdata(lua_state, param_stack_index) || lua_isnil(lua_state, param_stack_index))",
   "    \x7b",
   "        if (lua_isnil(lua_state, param_stack_index))",
   "        \x7b",
   "            if constexpr (!std::is_pointer_v<UserdataFullType>)",
   "            \x7b",
   "                auto error_message = std::format(\"userdata '\x7b\x7d' is a reference and therefore cannot be nil\", std::string_view\x7bself_target_metatable_name.value\x7d);",
   "                luaL_argerror(lua_state, param_stack_index + 1, error_message.c_str());",
   "            \x7d",
   "            else",
   "            \x7b",
   "                return nullptr;",
   "            \x7d",
   "        \x7d",
   "",
   "        lua_getmetatable(lua_state, param_stack_index);",
   "        lua_pushliteral(lua_state, \"__name\");",
   "        lua_rawget(lua_state, -2);",
   "        auto metatable_name = std::string\x7blua_tostring(lua_state, -1)\x7d;",
   "        lua_pop(lua_state, 2);",
   "        if (ConvertibleToMap.contains(metatable_name))",
   "        \x7b",
   "            lua_getiuservalue(lua_state, param_stack_index, 1);",
   "            int pointer_depth = lua_tointeger(lua_state, -1);",
   "            bool is_pointer = pointer_depth > 0;",
   "            if (is_pointer)",
   "            \x7b",
   "                auto* outer_most_container = lua_touserdata(lua_state, param_stack_index);",
   "                obj_ptr = *static_cast<UserdataType**>(deref(outer_most_container, pointer_depth - 1));",
   "            \x7d",
   "            else",
   "            \x7b",
   "                obj_ptr = static_cast<UserdataType*>(lua_touserdata(lua_state, param_stack_index));",
   "            \x7d",
   "            lua_pop(lua_state, 1);",
   "        \x7d",
   "        else",
   "        \x7b",
   "            auto error_message = std::format(\"userdata was '\x7b\x7d', expected '\x7b\x7d' or derivative\", metatable_name, std::string_view\x7bself_target_metatable_name.value\x7d);",
   "            luaL_argerror(lua_state, param_stack_index + 1, error_message.c_str());",
   "        \x7d",
   "    \x7d",
   "    else",
   "    \x7b",
   "        auto error_message = std::format(\"expected userdata '\x7b\x7d', got non-userdata '\x7b\x7d'\", std::string_view\x7bself_target_metatable_name.value\x7d, lua_typename(lua_state, lua_type(lua_state, param_stack_index)));",
   "        luaL_argerror(lua_state, param_stack_index + 1, error_message.c_str());",
   "    \x7d",
   "",
   "    if constexpr (!std::is_pointer_v<UserdataFullType>)",
   "    \x7b",
   "        return *obj_ptr;",
   "    \x7d",
   "    else",
   "    \x7b",
   "        return obj_ptr;",
   "    \x7d",
   "\x7d"]

/-- Assigns through a pointer object. -/
def memberSet : List String :=
  ["template<StringLiteral self_target_metatable_name, typename SelfType, std::unordered_set<std::string>& ConvertibleToMap, typename GetSelfFunctionT, GetSelfFunctionT GetSelfFunction>",
   "inline auto lua_util_userdata_member_function_wrapper_Set(lua_State* lua_state) -> int",
   "\x7b",
   "    try",
   "    \x7b",
   "        auto [_, self] = GetSelfFunction(lua_state);",
   "",
   "        if (lua_isuserdata(lua_state, 1) || lua_isnil(lua_state, 1))",
   "        \x7b",
   "            if (lua_isuserdata(lua_state, 1))",
   "            \x7b",
   "                lua_getmetatable(lua_state, 1);",
   "                lua_pushliteral(lua_state, \"__name\");",
   "                lua_rawget(lua_state, -2);",
   "                auto metatable_name = std::string\x7blua_tostring(lua_state, -1)\x7d;",
   "                lua_pop(lua_state, 1);",
   "                if (ConvertibleToMap.contains(metatable_name))",
   "                \x7b",
   "                    lua_getiuservalue(lua_state, 1, 1);",
   "                    int pointer_depth = lua_tointeger(lua_state, -1);",
   "                    bool is_pointer = pointer_depth > 0;",
   "                    if (is_pointer)",
   "                    \x7b",
   "                        auto* outer_most_container = lua_touserdata(lua_state, 1);",
   "                        *self = *static_cast<SelfType**>(deref(outer_most_container, pointer_depth - 1));",
   "                    \x7d",
   "                    else",
   "                    \x7b",
   "                        *self = static_cast<SelfType*>(lua_touserdata(lua_state, 1));",
   "                    \x7d",
   "                    lua_pop(lua_state, 3);",
   "                \x7d",
   "                else",
   "                \x7b",
   "                    auto error_message = std::format(\"self was '\x7b\x7d', expected '\x7b\x7d' or derivative\", metatable_name, std::string_view\x7bself_target_metatable_name.value\x7d);",
   "                    luaL_argerror(lua_state, 2, error_message.c_str());",
   "                \x7d",
   "            \x7d",
   "            else // value is nil (treat as nullptr)",
   "            \x7b",
   "                *self = nullptr;",
   "            \x7d",
   "        \x7d",
   "",
   "        return 0;",
   "    \x7d",
   "    catch (std::exception& e)",
   "    \x7b",
   "        luaL_error(lua_state, e.what());",
   "        return 0;",
   "    \x7d",
   "\x7d"]

/-- Gives the object itself. -/
def memberGet : List String :=
  ["inline auto lua_util_userdata_member_function_wrapper_Get(lua_State* lua_state) -> int",
   "\x7b",
   "    try",
   "    \x7b",
   "        return 1;",
   "    \x7d",
   "    catch (std::exception& e)",
   "    \x7b",
   "        luaL_error(lua_state, e.what());",
   "        return 0;",
   "    \x7d",
   "\x7d"]

/-- Is the object there? -/
def memberIsValid : List String :=
  ["template<typename GetSelfFunctionT, GetSelfFunctionT GetSelfFunction>",
   "inline auto lua_util_userdata_member_function_wrapper_IsValid(lua_State* lua_state) -> int",
   "\x7b",
   "    try",
   "    \x7b",
   "        auto [_, container_self] = GetSelfFunction(lua_state);",
   "        lua_pushboolean(lua_state, container_self && *container_self ? true : false);",
   "        return 1;",
   "    \x7d",
   "    catch (std::exception& e)",
   "    \x7b",
   "        luaL_error(lua_state, e.what());",
   "        return 0;",
   "    \x7d",
   "\x7d"]

/-- Gives the address of the object. -/
def memberGetAddress : List String :=
  ["template<typename GetSelfFunctionT, GetSelfFunctionT GetSelfFunction>",
   "inline auto lua_util_userdata_member_function_wrapper_GetAddress(lua_State* lua_state) -> int",
   "\x7b",
   "    try",
   "    \x7b",
   "        auto [is_pointer, container_self] = GetSelfFunction(lua_state);",
   "        auto pointer = is_pointer ? (container_self ? *container_self : nullptr) : static_cast<void*>(container_self);",
   "        lua_pushinteger(lua_state, std::bit_cast<lua_Integer>(pointer));",
   "        return 1;",
   "    \x7d",
   "    catch (std::exception& e)",
   "    \x7b",
   "        luaL_error(lua_state, e.what());",
   "        return 0;",
   "    \x7d",
   "\x7d"]

/-- Wraps memory as an object. -/
def heapObject : List String :=
  ["template<StringLiteral MetatableName, typename ItemValueType, bool IsItemPointer = true, bool MoveConstruct = false>",
   "inline auto lua_Userdata_to_lua_from_heap(lua_State* lua_state, std::conditional_t<IsItemPointer, void*, ItemValueType&> item, uint32_t pointer_depth = 1) -> void",
   "\x7b",
   "    auto* userdata = static_cast<ItemValueType*>(lua_newuserdatauv(lua_state, sizeof(std::conditional_t<IsItemPointer, ItemValueType*, ItemValueType>), 1));",
   "    lua_pushinteger(lua_state, pointer_depth);",
   "    lua_setiuservalue(lua_state, -2, 1);",
   "    if constexpr (IsItemPointer)",
   "    \x7b",
   "        new(userdata) ItemValueType*\x7bstatic_cast<ItemValueType*>(item)\x7d;",
   "    \x7d",
   "    else",
   "    \x7b",
   "        if constexpr (MoveConstruct)",
   "        \x7b",
   "            new(userdata) ItemValueType\x7bstd::move(item)\x7d;",
   "        \x7d",
   "        else",
   "        \x7b",
   "            new(userdata) ItemValueType\x7bitem\x7d;",
   "        \x7d",
   "    \x7d",
   "    luaL_getmetatable(lua_state, MetatableName.value);",
   "    lua_setmetatable(lua_state, -2);",
   "\x7d"]

/-- The helpers as text; a blank line is between any two. -/
def utility : String :=
  Text.separated "\n" <|
    dereference ++ "" ::
    userdataGet ++ "" ::
    memberSet ++ "" ::
    memberGet ++ "" ::
    memberIsValid ++ "" ::
    memberGetAddress ++ "" ::
    heapObject

end LuaGlue.Support
