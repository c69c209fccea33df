import LuaGlue.Binding.Function

/-!
Classes and enums that are bound to Lua, and the names that mean something to both sides.

A class is *exposed* once it has a Lua state; a class without one is *thin* and only takes part in
looking up bases.
-/

namespace LuaGlue

/-- Functions by name. -/
abbrev Functions := NameMap BoundFunction

/-- The kinds of members of a class. -/
inductive MemberKind where
  | function
  | static
  | constructor
  | metamethod
  deriving DecidableEq, Repr

/-- A class. -/
structure BoundClass where
  id : ClassId
  name : String
  scope : String
  /-- The scope in Lua, where it is another one. -/
  scopeOverride : Option String := none
  /-- The header that declares it. -/
  source : String
  /-- The Lua state it is exposed in. -/
  state : Option String := none
  functions : Functions := ∅
  statics : Functions := ∅
  constructors : Functions := ∅
  /-- By the name of the metamethod. -/
  metamethods : Functions := ∅
  /-- The classes declared inside it. -/
  nested : List ClassId := []
  /-- The direct bases, in the order of declaration. -/
  bases : List ClassId := []
  hasDefaultConstructor : Bool := false

namespace BoundClass

/-- Has it a Lua state? -/
def isExposed (c : BoundClass) : Bool := c.state.isSome

/-- The name with its scope. -/
def qualified (c : BoundClass) : String := Scope.qualify c.scope c.name

/-- The part that every identifier generated for the class has in common. -/
def tag (c : BoundClass) : String := Scope.tag c.scope c.name

/-- The metatable of its objects. -/
def metatable (c : BoundClass) : String := c.tag ++ "Metatable"

/-- The scope in Lua. -/
def luaScope (c : BoundClass) : String := c.scopeOverride.getD c.scope

/-- The constructor that takes parameters. -/
def constructor? (c : BoundClass) : Option BoundFunction := c.constructors.get? c.name

/-- The members of a kind. -/
def members (c : BoundClass) : MemberKind → Functions
  | .function => c.functions
  | .static => c.statics
  | .constructor => c.constructors
  | .metamethod => c.metamethods

/-- The class with these members of a kind. -/
def withMembers (c : BoundClass) (kind : MemberKind) (functions : Functions) : BoundClass :=
  match kind with
  | .function => { c with functions }
  | .static => { c with statics := functions }
  | .constructor => { c with constructors := functions }
  | .metamethod => { c with metamethods := functions }

theorem members_withMembers (c : BoundClass) (kind other : MemberKind) (functions : Functions) :
    (c.withMembers kind functions).members other = if other = kind then functions else c.members other := by
  cases kind <;> cases other <;> rfl

@[simp] theorem id_withMembers (c : BoundClass) (kind : MemberKind) (functions : Functions) :
    (c.withMembers kind functions).id = c.id := by
  cases kind <;> rfl

end BoundClass

/-- An enum. -/
structure BoundEnum where
  name : String
  scope : String
  state : String
  /-- Keys and values as declared. -/
  values : List (String × Nat)
  deriving Repr

/-- The name with its scope. -/
def BoundEnum.qualified (e : BoundEnum) : String := Scope.qualify e.scope e.name

/-- The metamethods a class may implement, in the order generated code lists them. -/
def metamethodNames : List String :=
  ["__add", "__sub", "__mul", "__div", "__mod", "__pow", "__unm", "__idiv", "__band", "__bor",
   "__bxor", "__bnot", "__shl", "__shr", "__concat", "__len", "__eq", "__lt", "__le", "__index",
   "__newindex", "__call", "__gc", "__close"]

/-- The symbols that an operator overload ends in. -/
def operatorSymbols : List String :=
  ["&&", "||", "++", "--", "()", "[]", "+", "-", "*", "->", "/", "%", "^", "&", "|", "~", "!", "=",
   "<", ">", "+=", "-=", "*=", "/=", "%=", "^=", "&=", "|=", "<<", ">>", ">>=", "<<=", "==", "!=",
   "<=", ">=", "<=>", ",", "->*"]

/-- Is the name that of an operator overload? Lua never sees those. -/
def isOperatorName (name : String) : Bool := operatorSymbols.any fun symbol => name == "operator" ++ symbol

end LuaGlue
