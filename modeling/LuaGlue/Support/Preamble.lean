import LuaGlue.Text.Lines

/-!
The helpers that generated code begins with: callables as function pointers, the words for the status
of a Lua call, texts as template parameters, and boxed function pointers.
-/

namespace LuaGlue.Support

/-- The storage of one callable. -/
def callableStorage : List String :=
  ["template<typename Callable>",
   "union storage",
   "\x7b",
   "    storage() \x7b\x7d",
   "    std::decay_t<Callable> callable;",
   "\x7d;"]

/-- The static function that calls a stored callable. -/
def functionPointerOf : List String :=
  ["template<int, typename Callable, typename Ret, typename... Args>",
   "auto fnptr_(Callable&& c, Ret (*)(Args...))",
   "\x7b",
   "    static bool used = false;",
   "    static storage<Callable> s;",
   "    using type = decltype(s.callable);",
   "",
   "    if (used)",
   "    \x7b",
   "        s.callable.~type();",
   "    \x7d",
   "    new(&s.callable) type(std::forward<Callable>(c));",
   "    used = true;",
   "",
   "    return [](Args... args) -> Ret \x7b",
   "        return Ret(s.callable(std::forward<Args>(args)...));",
   "    \x7d;",
   "\x7d"]

/-- A callable as a function pointer. -/
def functionPointer : List String :=
  ["template<typename Fn, int N = 0, typename Callable>",
   "Fn* fnptr(Callable&& c)",
   "\x7b",
   "    return fnptr_<N>(std::forward<Callable>(c), (Fn*)nullptr);",
   "\x7d"]

/-- The words for the status of a Lua call. -/
def statusMessage : List String :=
  ["auto inline resolve_status_message(lua_State* lua_state, int status) -> std::string",
   "\x7b",
   "    auto status_to_string = [](int status) -> std::string \x7b",
   "        switch (status)",
   "        \x7b",
   "            case LUA_YIELD:",
   "                return \"LUA_YIELD\";",
   "            case LUA_ERRRUN:",
   "                return \"LUA_ERRRUN\";",
   "            case LUA_ERRSYNTAX:",
   "                return \"LUA_ERRSYNTAX\";",
   "            case LUA_ERRMEM:",
   "                return \"LUA_ERRMEM\";",
   "            case LUA_ERRERR:",
   "                return \"LUA_ERRERR\";",
   "            case LUA_ERRFILE:",
   "                return \"LUA_ERRFILE\";",
   "        \x7d",
   "",
   "        return \"Unknown error\";",
   "    \x7d;",
   "",
   "    if (lua_isstring(lua_state, -1))",
   "    \x7b",
   "        const char* status_message = lua_tostring(lua_state, -1);",
   "        lua_pop(lua_state, 1);",
   "        return std::format(\"\x7b\x7d => \x7b\x7d\", status_to_string(status), status_message);",
   "    \x7d",
   "    else",
   "    \x7b",
   "        return std::format(\"\x7b\x7d => No message\", status_to_string(status));",
   "    \x7d",
   "\x7d;"]

/-- A text as a template parameter. -/
def stringLiteral : List String :=
  ["template<size_t N>",
   "struct StringLiteral",
   "\x7b",
   "    constexpr StringLiteral(const char (& str)[N])",
   "    \x7b",
   "        std::copy_n(str, N, value);",
   "    \x7d",
   "",
   "    char value[N];",
   "\x7d;"]

/-- A boxed function pointer. -/
def functionProto : List String :=
  ["struct FunctionProto",
   "\x7b",
   "    void* function_pointer\x7b\x7d;",
   "    using LuaWrapperFunctionPointer = int(*)(lua_State*);",
   "    LuaWrapperFunctionPointer lua_wrapper_function_function_pointer\x7b\x7d;",
   "\x7d;"]

/-- The helpers as text; a blank line is between any two. -/
def preamble : String :=
  Text.separated "\n" <|
    callableStorage ++ "" ::
    functionPointerOf ++ "" ::
    functionPointer ++ "" ::
    statusMessage ++ "" ::
    stringLiteral ++ "" ::
    functionProto

end LuaGlue.Support
