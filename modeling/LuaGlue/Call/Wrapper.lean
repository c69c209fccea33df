import LuaGlue.Call.Native

/-!
The Lua functions that call native functions.

A wrapper finds the object when it calls a member, reads the arguments, calls, and pushes the result.
Whatever the native side throws becomes a Lua error.
-/

namespace LuaGlue

/-- What a wrapper does with the result: nothing, or push it. -/
def BoundFunction.pushResult (f : BoundFunction) (registry : Registry) :
    Except Abort (Option PushCode) :=
  if f.result.isVoidValue then .ok none else some <$> f.result.push "return_value" "" registry

/-- The end of a wrapper: the push of the result, and the number of results. -/
def renderReturn : Option PushCode → String
  | none => Text.openLines 8 ["return 0;"]
  | some push => push.render ++ ";\n" ++ Text.openLines 8 ["return 1;"]

/-- The handler that turns an exception into a Lua error. -/
def renderCatch : String :=
  Text.lines 4
    ["\x7d",
     "catch (std::exception& e)",
     "\x7b",
     "    luaL_error(lua_state, e.what());",
     "    return 0;",
     "\x7d"] ++ "\n"

/-- The name of the helper that finds the object a member is called on. -/
def selfHelper (className : String) : String := s!"internal_{className}_get_self"

/-- The body of a wrapper. -/
structure WrapperBody where
  /-- The helper that finds the object, for a member. -/
  self : Option String
  call : CallCode
  push : Option PushCode
  deriving DecidableEq, Repr

namespace WrapperBody

/-- The body of the wrapper of a function. -/
def of (f : BoundFunction) (registry : Registry) : Except Abort WrapperBody := do
  let self := if f.isMember then some (selfHelper (Scope.identifier f.scope)) else none
  let call ← CallCode.of f registry true
  return { self, call, push := ← f.pushResult registry }

/-- The code that finds the object. -/
def renderSelf (helper : String) : String :=
  Text.lines 8 ["// Prologue", s!"auto [_, self] = {helper}(lua_state);"] ++ "\n"

/-- The body as text. -/
def render (b : WrapperBody) : String :=
  Text.lines 4 ["try", "\x7b"]
    ++ (b.self.map renderSelf).getD ""
    ++ Text.line 8 "// Native call"
    ++ b.call.render
    ++ renderReturn b.push ++ "\n"
    ++ renderCatch

end WrapperBody

/-- A definition of a wrapper. -/
structure WrapperFunction where
  name : String
  body : WrapperBody
  deriving DecidableEq, Repr

namespace WrapperFunction

/-- The wrapper of a function, under a name. -/
def of (name : String) (f : BoundFunction) (registry : Registry) :
    Except Abort WrapperFunction := do
  return ⟨name, ← WrapperBody.of f registry⟩

/-- The definition, up to its closing brace. -/
def renderDefinition (w : WrapperFunction) : String :=
  s!"inline auto {w.name}(lua_State* lua_state) -> int\n\x7b\n" ++ w.body.render ++ "\x7d\n"

/-- The definition and the blank line after it. -/
def render (w : WrapperFunction) : String := w.renderDefinition ++ "\n"

end WrapperFunction

/-- The name of the wrapper of a free function: the native one that was given, else its own. -/
def BoundFunction.freeWrapperName (f : BoundFunction) : String :=
  f.wrapperName.getD s!"lua{Scope.identifier f.scope}_{f.name}_wrapper"

end LuaGlue
