import LuaGlue.Glue.Self
import LuaGlue.Glue.Tables

/-!
Calling a class table to make an object.

A class with a constructor that takes parameters gets a function that gives its class table a `__call`
metamethod. A call without arguments makes a default object first, if the class has a constructor
without parameters too.
-/

namespace LuaGlue

/-- The function that makes a class table callable. -/
structure ConstructorDispatch where
  hasDefault : Bool
  body : WrapperBody
  deriving DecidableEq, Repr

/-- The statements that make the table on top callable: a metatable with the body as `__call`. -/
def ConstructorDispatch.makeCallable (body : String) : List TableStmt :=
  [.run .newTable, .run (.pushLiteral "__call"), .pushLambda body, .run .setField, .run .setMetatable]

namespace BoundClass

/-- The name of the function that makes the class table callable. -/
def dispatchName (c : BoundClass) : String := s!"lua_setup_{c.tag}_constructor_dispatch"

/-- The function that makes the class table callable, for a class that needs one. -/
def constructorDispatch (c : BoundClass) (registry : Registry) :
    Except Abort (Option ConstructorDispatch) :=
  match c.constructor? with
  | none => .ok none
  | some f => do return some ⟨c.hasDefaultConstructor, ← WrapperBody.of f registry⟩

/-- The code that makes a default object when there are no arguments. -/
def renderDefaultObject (c : BoundClass) : String :=
  let q := c.qualified
  Text.lines 8
    ["if (lua_gettop(lua_state) == 0)",
     "\x7b",
     s!"    auto constructed_object = {q}\x7b\x7d;",
     s!"    auto* userdata = static_cast<{q}*>(lua_newuserdatauv(lua_state, sizeof({q}), 1));",
     "    lua_pushinteger(lua_state, 0);",
     "    lua_setiuservalue(lua_state, -2, 1);",
     s!"    new(userdata) {q}\x7bstd::move(constructed_object)\x7d;",
     s!"    luaL_getmetatable(lua_state, \"{c.metatable}\");",
     "    lua_setmetatable(lua_state, -2);",
     "    return 1;",
     "\x7d"]

/-- What a call of the class table runs. -/
def renderCallBody (c : BoundClass) (d : ConstructorDispatch) : String :=
  Text.line 8 "lua_remove(lua_state, 1);" ++ (if d.hasDefault then c.renderDefaultObject else "")
    ++ d.body.render

/-- The definition, without a line feed at its end. -/
def renderDispatch (c : BoundClass) (d : ConstructorDispatch) : String :=
  Text.line 0 s!"inline auto {c.dispatchName}(lua_State* lua_state) -> void"
    ++ Text.line 0 "\x7b"
    ++ TableStmt.renderAll 4 (ConstructorDispatch.makeCallable (c.renderCallBody d))
    ++ "\x7d"

end BoundClass

end LuaGlue
