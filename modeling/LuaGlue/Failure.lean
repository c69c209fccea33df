/-!
What can go wrong while bindings are made.

A `SkipReason` concerns one declaration: it is left out and the run goes on. An `Abort` is a broken
invariant: the run stops. Both are causes; the words that report them are in `message`.
-/

namespace LuaGlue

/-- A class by its place in the order of registration. -/
abbrev ClassId := Nat

/-- Why a declaration cannot be bound. -/
inductive SkipReason where
  /-- No rule reads this spelling of a type. -/
  | unhandledType (spelling : String)
  /-- A template that no array configuration knows. -/
  | templatedType (spelling : String)
  /-- A pointer to a pointer. -/
  | multiLevelPointer (spelling : String)
  /-- A character by value is neither a text nor a number. -/
  | plainChar
  /-- The class is exposed already. -/
  | duplicateClass (name : String) (existing : ClassId)
  /-- An enum of this name is registered already. -/
  | duplicateEnum (name : String)
  /-- An equivalent overload is there already. -/
  | duplicateOverload
  /-- The class was never declared. -/
  | unknownClass (name : String)
  deriving DecidableEq, Repr

/-- The words that report the reason. -/
def SkipReason.message : SkipReason → String
  | .unhandledType spelling => s!"type '{spelling}' is unhandled"
  | .templatedType spelling => s!"templated type '{spelling}' is not supported"
  | .multiLevelPointer spelling => s!"multi-level pointer '{spelling}' is not supported"
  | .plainChar => "type 'char' is only supported as 'char*'"
  | .duplicateClass name _ => s!"a class named '{name}' already exists"
  | .duplicateEnum name => s!"an enum named '{name}' already exists"
  | .duplicateOverload => "overload already exists"
  | .unknownClass name => s!"class '{name}' was never declared"

/-- Why a run cannot go on. -/
inductive Abort where
  /-- A kind of type was asked for what it does not provide. -/
  | unsupported (operation kind : String)
  /-- A value of a class that the registry does not hold is read. -/
  | missingClass (name : String)
  /-- A value of a class that the registry does not hold is pushed. -/
  | missingOwner (name : String)
  /-- The base edge would make a class its own ancestor. -/
  | baseCycle (derived base : String)
  /-- A function without any parameter list. -/
  | noOverloads (name : String)
  deriving DecidableEq, Repr

/-- The words that report the abort. -/
def Abort.message : Abort → String
  | .unsupported operation kind => s!"'{operation}' is not supported for type '{kind}'"
  | .missingClass name => s!"was unable to find class or struct for type '{name}'"
  | .missingOwner name => s!"was unable to find an owner to type '{name}'"
  | .baseCycle derived base => s!"base cycle: '{derived}' cannot derive from '{base}'"
  | .noOverloads name => s!"function '{name}' has no overloads"

end LuaGlue
