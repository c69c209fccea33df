import LuaGlue.Binding.Registry
import LuaGlue.Text.Lines

/-!
Putting a native value on the Lua stack, as generated code does it.

The code is a list of steps. Each step has a known effect on the height of the stack: `put`, `allot`
and `findMetatable` add a value, `setUserValue` and `setMetatable` take one off, `box` and `native` leave
the stack alone.

    numbers, texts          put
    objects of a class      allot, put (pointer depth), setUserValue, native (construct),
                            findMetatable, setMetatable

A `qualifier` in front of `lua_state` names the lambda that saved the Lua state.
-/

namespace LuaGlue

/-- One statement of the code that pushes a value. -/
inductive PushStep where
  /-- `function(lua_state, argument)` pushes one value. -/
  | put (function qualifier argument : String)
  /-- New userdata is pushed and, cast to a type unless it stays untyped, kept in `userdata`. -/
  | allot (qualifier : String) (cast : Option String) (size : String) (userValues : Nat)
  /-- The value on top becomes the user value of the userdata below. -/
  | setUserValue (qualifier : String)
  /-- The metatable of this name is pushed. -/
  | findMetatable (qualifier name : String)
  /-- The metatable on top becomes that of the userdata below. -/
  | setMetatable (qualifier : String)
  /-- A function pointer is put into the userdata, with the Lua function that calls it. -/
  | box (value wrapper : String)
  /-- A statement that does not touch the Lua stack. -/
  | native (text : String)
  deriving DecidableEq, Repr

/-- The statement, without its semicolon. -/
def PushStep.render : PushStep → String
  | .put function qualifier argument => s!"{function}({qualifier}lua_state, {argument})"
  | .allot qualifier (some type) size userValues =>
    s!"auto* userdata = static_cast<{type}*>(lua_newuserdatauv({qualifier}lua_state, sizeof({size}), {userValues}))"
  | .allot qualifier none size userValues =>
    s!"auto userdata = lua_newuserdatauv({qualifier}lua_state, sizeof({size}), {userValues})"
  | .setUserValue qualifier => s!"lua_setiuservalue({qualifier}lua_state, -2, 1)"
  | .findMetatable qualifier name => s!"luaL_getmetatable({qualifier}lua_state, \"{name}\")"
  | .setMetatable qualifier => s!"lua_setmetatable({qualifier}lua_state, -2)"
  | .box value wrapper => s!"new(userdata) FunctionProto\x7bstd::bit_cast<void*>({value}), &{wrapper}\x7d"
  | .native text => text

/-- The code that pushes one value. -/
structure PushCode where
  steps : List PushStep
  /-- Does the last statement already have its semicolon and line feed? -/
  isClosed : Bool
  deriving DecidableEq, Repr

/-- The statements as text. -/
def PushCode.render (code : PushCode) : String :=
  Text.separated ";\n" (code.steps.map fun step => Text.blanks 8 ++ step.render)
    ++ (if code.isClosed then ";\n" else "")

namespace PushCode

/-- One pushing call. -/
def single (function qualifier argument : String) : PushCode :=
  ⟨[.put function qualifier argument], false⟩

/-- Objects of a class: the userdata holds the object itself, or a pointer to it. -/
def object (r : ClassRef) (m : Modifiers) (value qualifier : String) (owner : BoundClass) :
    PushCode :=
  let full := owner.qualified
  let star := if m.isPointer then "*" else ""
  let depth := if m.isPointer then "1" else "0"
  let constness := if m.isConst then "const " else ""
  let source := if r.moved then s!"std::move({value})" else value
  ⟨[.allot qualifier (some full) (full ++ star) 1,
    .put "lua_pushinteger" qualifier depth,
    .setUserValue qualifier,
    .native s!"new(userdata) {constness}{full}{star}\x7b{source}\x7d",
    .findMetatable qualifier (Scope.tag r.scope owner.name ++ "Metatable"),
    .setMetatable qualifier], false⟩

/-- A function pointer, boxed together with the Lua function that calls it. -/
def functionPointer (value wrapper : String) : PushCode :=
  ⟨[.allot "" none "FunctionProto" 0,
    .box value wrapper,
    .findMetatable "" "FunctionProtoMetatable",
    .setMetatable ""], true⟩

/-- An array, as the wrapper struct that points at its storage. -/
def arrayWrapper (names : ArrayNames) (element : String) (elementIsPointer : Bool) (m : Modifiers)
    (value qualifier : String) : PushCode :=
  let wrapper := names.wrapper
  let storage :=
    if m.isPointer then s!"std::bit_cast<{names.raw}*>({value})"
    else if m.isReference then s!"std::bit_cast<{names.raw}*>(&{value})"
    else s!"std::move(*std::bit_cast<{names.raw}*>(&{value}))"
  let source := if m.isPointer then "array_wrapper" else "std::move(array_wrapper)"
  ⟨[.native s!"auto array_wrapper = {wrapper}\x7b{storage}, sizeof({element}), alignof({element}), \"{element}\", {elementIsPointer}\x7d",
    .allot qualifier (some wrapper) wrapper 1,
    .put "lua_pushinteger" qualifier "0",
    .setUserValue qualifier,
    .native s!"new(userdata) {wrapper}\x7b{source}\x7d",
    .findMetatable qualifier names.wrapperMetatable,
    .setMetatable qualifier], true⟩

end PushCode

/-- The name of an array element: with its scope for a class, else the bare one. -/
def CxxType.elementName (t : CxxType) : Except Abort String :=
  match t.classRef? with
  | some r => .ok r.qualified
  | none => t.cxxName

/-- The code that pushes a native value of this type. `void` by value cannot be pushed, and neither
can an object of a class that the registry does not hold. -/
def CxxType.push (value qualifier : String) (registry : Registry) (t : CxxType) :
    Except Abort PushCode :=
  match t with
  | .void m =>
    if m.isPointer then .ok (.single "lua_pushlightuserdata" qualifier value)
    else .error (t.unsupported "push")
  | .numeric kind m =>
    .ok <|
      if m.isPointer then .single "lua_pushlightuserdata" qualifier value
      else
        let function := if kind.isFloating then "lua_pushnumber" else "lua_pushinteger"
        .single function qualifier s!"static_cast<{kind.cxxName}>({value})"
  | .bool _ => .ok (.single "lua_pushboolean" qualifier value)
  | .text .narrowPointer _ => .ok (.single "lua_pushstring" qualifier value)
  | .text .narrow _ => .ok (.single "lua_pushstring" qualifier s!"{value}.c_str()")
  | .text _ _ => .ok (.single "lua_pushstring" qualifier s!"::RC::to_string({value}).c_str()")
  | .enum _ _ => .ok (.single "lua_pushinteger" qualifier s!"static_cast<lua_Integer>({value})")
  | .record r m =>
    match registry.find? r.scope r.name with
    | some owner => .ok (.object r m value qualifier owner)
    | none => .error (.missingOwner r.qualified)
  | .function params result hasStorage _ => do
    return .functionPointer value (← (Signature.mk params result hasStorage).wrapperName)
  | .array names element m => do
    return .arrayWrapper names (← element.elementName) element.isPointer m value qualifier

end LuaGlue
