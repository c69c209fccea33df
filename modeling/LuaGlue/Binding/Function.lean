import LuaGlue.Cxx.Type
import LuaGlue.NameMap

/-!
Functions that are bound to Lua.

A function has one name and one or more overloads. An overload that says nothing new is refused:
one whose types are position by position equivalent to those of an overload that is there, and one
without parameters that is not the first. All types of text are equivalent to one another, because a
Lua string is accepted for each of them.
-/

namespace LuaGlue

/-- A parameter. -/
structure Param where
  name : String
  type : CxxType
  deriving Repr

/-- The parameters of one overload, in the order of the call. -/
abbrev Overload := List Param

/-- A function with all its overloads. -/
structure BoundFunction where
  name : String
  /-- The name in Lua. -/
  luaName : String
  /-- The scope of the native function; for a member it is its class. -/
  scope : String
  /-- The scope in Lua, where it is another one. -/
  scopeOverride : Option String := none
  /-- A native wrapper that stands in for a generated one. -/
  wrapperName : Option String := none
  /-- The header that declares it. -/
  source : String := ""
  /-- The class it is a member of. -/
  owner : Option ClassId := none
  overloads : List Overload := []
  result : CxxType
  isStatic : Bool := false
  isConstructor : Bool := false
  /-- Is it one more Lua name for a wrapper that stands elsewhere? -/
  isAlias : Bool := false
  /-- Does a native wrapper take the place of a member? -/
  isRedirector : Bool := false
  /-- Is it declared in the header of its class? -/
  sharesHeader : Bool := true
  /-- The Lua state that a free function belongs to. -/
  state : Option String := none
  deriving Repr

/-- Two types that no overload resolution can tell apart. -/
def CxxType.equivalent (a b : CxxType) : Bool :=
  (a.isText && b.isText) ||
    match a.qualifiedName, b.qualifiedName with
    | .ok x, .ok y => x == y
    | _, _ => false

/-- Two overloads whose types are equivalent position by position. -/
def Overload.equivalent (a b : Overload) : Bool :=
  a.length == b.length && (a.zip b).all fun (p, q) => p.type.equivalent q.type

namespace BoundFunction

/-- A function without overloads that goes by its own name. -/
def new (name scope : String) (result : CxxType) : BoundFunction :=
  { name, luaName := name, scope, result }

/-- The scope in Lua. -/
def luaScope (f : BoundFunction) : String := f.scopeOverride.getD f.scope

/-- The name with its scope. -/
def qualified (f : BoundFunction) : String := Scope.qualify f.scope f.name

/-- Is it called on an object? -/
def isMember (f : BoundFunction) : Bool := f.owner.isSome && !f.isStatic

/-- Does an overload that is there cover the new one? -/
def covers (f : BoundFunction) (overload : Overload) : Bool :=
  (overload.isEmpty && !f.overloads.isEmpty) || f.overloads.any (·.equivalent overload)

/-- The function with one more overload, unless that is covered. -/
def addOverload (f : BoundFunction) (overload : Overload) : Except SkipReason BoundFunction :=
  if f.covers overload then .error .duplicateOverload
  else .ok { f with overloads := f.overloads ++ [overload] }

/-- The types of all parameters of all overloads. -/
def paramTypes (f : BoundFunction) : List CxxType :=
  f.overloads.flatMap fun overload => overload.map Param.type

end BoundFunction

end LuaGlue
