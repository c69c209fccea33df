import LuaGlue.Scope

/-!
What a header declares, as far as bindings need it.

A *declaration* is a loose comment, a class, a function or an enum. Methods and constructors are
functions that name their class as owner; their scope is the qualified name of the class.
-/

namespace LuaGlue

/-- A parameter and the spelling of its type. -/
structure DeclaredParam where
  name : String
  type : String
  deriving DecidableEq, Repr

/-- A free function, a method or a constructor. -/
structure DeclaredFunction where
  name : String
  scope : String
  params : List DeclaredParam
  /-- The spelling of the type of the result. -/
  returns : String
  isStatic : Bool
  comment : String
  /-- The scope and the name of the class it is a member of. -/
  owner : Option (String × String)
  isConstructor : Bool
  source : String
  deriving DecidableEq, Repr

/-- The name with its scope. -/
def DeclaredFunction.qualified (f : DeclaredFunction) : String := Scope.qualify f.scope f.name

/-- A class. -/
structure DeclaredClass where
  name : String
  scope : String
  source : String
  line : Option Nat
  comment : String
  /-- The qualified names of the bases, in the order of declaration. -/
  bases : List String
  hasDefaultConstructor : Bool
  deriving DecidableEq, Repr

/-- The name with its scope. -/
def DeclaredClass.qualified (c : DeclaredClass) : String := Scope.qualify c.scope c.name

/-- An enum. -/
structure DeclaredEnum where
  name : String
  scope : String
  comment : String
  /-- Keys and values, each value as 64 bits without sign. -/
  values : List (String × Nat)
  source : String
  deriving DecidableEq, Repr

/-- The name with its scope. -/
def DeclaredEnum.qualified (e : DeclaredEnum) : String := Scope.qualify e.scope e.name

/-- One declaration. -/
inductive Declaration where
  /-- A comment that stands by itself. -/
  | remark (comment : String)
  | record (c : DeclaredClass)
  | function (f : DeclaredFunction)
  | enum (e : DeclaredEnum)
  deriving DecidableEq, Repr

/-- The comment of a declaration, empty if there is none. -/
def Declaration.comment : Declaration → String
  | .remark comment => comment
  | .record c => c.comment
  | .function f => f.comment
  | .enum e => e.comment

end LuaGlue
