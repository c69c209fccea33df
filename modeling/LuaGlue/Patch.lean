import LuaGlue.Cxx.Type

/-!
Two optional extensions of what can be bound.

*Dynamic array.* Instances of one container template are shown to Lua as a wrapper struct that points
at the array without its element type.

*Heap objects.* Every class gets a short name, and a table from names to functions lets a script wrap
raw memory as an object of a named type.
-/

namespace LuaGlue

/-- The container template that is shown to Lua through a wrapper struct. -/
structure DynamicArray where
  template : String
  wrapper : String
  raw : String
  /-- The header of the wrapper struct. -/
  header : Option String := none
  deriving DecidableEq, Repr

/-- The names as generated code spells them. -/
def DynamicArray.names (a : DynamicArray) : ArrayNames :=
  let (wrapperScope, wrapperName) := Scope.splitQualified a.wrapper
  { template := Scope.fromGlobal a.template, wrapperScope, wrapperName,
    raw := Scope.fromGlobal a.raw }

/-- Short class names, and heap memory wrapped by type name. -/
structure HeapObjects where
  /-- Beginnings that are taken off a class name to make it short. -/
  stripped : List String := []
  /-- The metatable field that holds the short name. -/
  nameField : String := "__short_name"
  deriving DecidableEq, Repr

/-- The extensions that are switched on. -/
structure Patches where
  array : Option DynamicArray := none
  heap : Option HeapObjects := none
  deriving DecidableEq, Repr

namespace Patches

/-- The headers that every state file includes for them. -/
def headers (p : Patches) : List String := (p.array.bind DynamicArray.header).toList

/-- A type with what the extensions add to it: the wrapper struct of arrays is moved. -/
def adjust (p : Patches) (t : CxxType) : CxxType :=
  match t, p.array with
  | .record ref m, some array =>
    let names := array.names
    if ref.scope = names.wrapperScope ∧ ref.name = names.wrapperName then
      .record { ref with moved := true } m
    else t
  | _, _ => t

end Patches

end LuaGlue
