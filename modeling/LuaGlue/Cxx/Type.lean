import LuaGlue.Cxx.Numeric
import LuaGlue.Failure
import LuaGlue.Scope

/-!
The types of parameters and results.

A type is a kind together with its modifiers (pointer, reference, const). It has two names in C++:
`cxxName` is the bare name of the kind, `qualifiedName` has the scope and the pointer and reference
marks. A function type has no bare name, and `signatureText` writes it out instead, so a type has a
qualified name unless the result of a function type in it is itself a function type.
-/

namespace LuaGlue

/-- The marks around a type. -/
structure Modifiers where
  isPointer : Bool := false
  isReference : Bool := false
  isConst : Bool := false
  deriving DecidableEq, Repr

/-- The marks as they follow the name of a type. -/
def Modifiers.marks (m : Modifiers) : String :=
  (if m.isPointer then "*" else "") ++ (if m.isReference then "&" else "")

/-- The keyword of a class that was named without being declared. -/
inductive ForwardKeyword where
  | structWord
  | classWord
  deriving DecidableEq, Repr

/-- A class or struct that a type refers to. -/
structure ClassRef where
  name : String
  scope : String
  /-- The keyword the reference was written with, if any. -/
  forward : Option ForwardKeyword := none
  /-- Is a value moved into the userdata that Lua gets? -/
  moved : Bool := false
  deriving DecidableEq, Repr

namespace ClassRef

/-- The name with its scope. -/
def qualified (r : ClassRef) : String := Scope.qualify r.scope r.name

/-- The tag of the class. -/
def tag (r : ClassRef) : String := Scope.tag r.scope r.name

end ClassRef

/-- The names under which a container template reaches Lua. -/
structure ArrayNames where
  /-- The template, from the global namespace on. -/
  template : String
  wrapperScope : String
  wrapperName : String
  /-- The array without its element type, from the global namespace on. -/
  raw : String
  deriving DecidableEq, Repr

namespace ArrayNames

/-- The wrapper struct that Lua sees. -/
def wrapper (names : ArrayNames) : String := Scope.qualify names.wrapperScope names.wrapperName

/-- The metatable of the wrapper struct. -/
def wrapperMetatable (names : ArrayNames) : String :=
  Scope.tag names.wrapperScope names.wrapperName ++ "Metatable"

/-- The name of the array without its scope. -/
def rawName (names : ArrayNames) : String := (Scope.splitQualified names.raw).2

end ArrayNames

/-- A type that a binding touches. -/
inductive CxxType where
  | void (mods : Modifiers)
  | numeric (kind : Numeric) (mods : Modifiers)
  | bool (mods : Modifiers)
  | text (kind : TextKind) (mods : Modifiers)
  /-- An enum by its qualified name. -/
  | enum (name : String) (mods : Modifiers)
  /-- A class or struct. -/
  | record (ref : ClassRef) (mods : Modifiers)
  /-- A function pointer, or a closure when it has storage. -/
  | function (params : List CxxType) (result : CxxType) (hasStorage : Bool) (mods : Modifiers)
  /-- An instance of the configured container template. -/
  | array (names : ArrayNames) (element : CxxType) (mods : Modifiers)
  deriving Repr

namespace CxxType

/-- The marks around the type. -/
def mods : CxxType → Modifiers
  | .void m | .numeric _ m | .bool m | .text _ m | .enum _ m | .record _ m | .function _ _ _ m
  | .array _ _ m => m

/-- The same kind with these marks. -/
def withMods (m : Modifiers) : CxxType → CxxType
  | .void _ => .void m
  | .numeric k _ => .numeric k m
  | .bool _ => .bool m
  | .text k _ => .text k m
  | .enum n _ => .enum n m
  | .record r _ => .record r m
  | .function ps r s _ => .function ps r s m
  | .array n e _ => .array n e m

@[simp] theorem mods_withMods (m : Modifiers) (t : CxxType) : (t.withMods m).mods = m := by
  cases t <;> rfl

/-- The type of a function without result. -/
def plainVoid : CxxType := .void {}

/-- Is it a pointer? -/
def isPointer (t : CxxType) : Bool := t.mods.isPointer

/-- Is it a reference? -/
def isReference (t : CxxType) : Bool := t.mods.isReference

/-- Is it constant? -/
def isConst (t : CxxType) : Bool := t.mods.isConst

/-- The pointer and reference marks. -/
def marks (t : CxxType) : String := t.mods.marks

/-- The mark of a constant, as a qualifier in front of a name. -/
def constness (t : CxxType) : String := if t.isConst then "const " else ""

/-- Is it numeric? -/
def isNumeric : CxxType → Bool
  | .numeric _ _ => true
  | _ => false

/-- Is it a text? -/
def isText : CxxType → Bool
  | .text _ _ => true
  | _ => false

/-- Is it `void` by value? Then there is no value. -/
def isVoidValue : CxxType → Bool
  | .void m => !m.isPointer
  | _ => false

/-- The class it refers to, if it is one. -/
def classRef? : CxxType → Option ClassRef
  | .record r _ => some r
  | _ => none

/-- What a report calls the kind. -/
def kindLabel : CxxType → String
  | .void _ => "void"
  | .numeric k _ => k.cxxName
  | .bool _ => "bool"
  | .text k _ => k.cxxName
  | .enum n _ => n
  | .record r _ => r.qualified
  | .function _ _ _ _ => "function signature"
  | .array names _ _ => names.rawName

/-- The abort for an operation that the kind does not provide. -/
def unsupported (t : CxxType) (operation : String) : Abort := .unsupported operation t.kindLabel

/-- The bare name of the kind. A function type has none. -/
def cxxName : CxxType → Except Abort String
  | .void _ => .ok "void"
  | .numeric k _ => .ok k.cxxName
  | .bool _ => .ok "bool"
  | .text k _ => .ok k.cxxName
  | .enum n _ => .ok n
  | .record r _ => .ok r.name
  | .function ps r s m => .error ((CxxType.function ps r s m).unsupported "cxx_name")
  | .array names _ _ => .ok names.rawName

/-- How a function type is written, given its parameters as written. -/
def functionText (params : List String) (result : String) (asPointer : Bool) : String :=
  result ++ (if asPointer then "(*)" else "") ++ "(" ++ ", ".intercalate params ++ ")"

mutual

/-- The name with its scope and its pointer and reference marks; a function type is written out. -/
def qualifiedName : CxxType → Except Abort String
  | .text k m => .ok (k.baseName ++ m.marks)
  | .record r m => .ok (r.qualified ++ m.marks)
  | .function ps r _ _ => do
    let params ← qualifiedParams ps
    return functionText params (← r.cxxName) false
  | .void m => .ok ("void" ++ m.marks)
  | .numeric k m => .ok (k.cxxName ++ m.marks)
  | .bool m => .ok ("bool" ++ m.marks)
  | .enum n m => .ok (n ++ m.marks)
  | .array names _ m => .ok (names.rawName ++ m.marks)

/-- The parameters of a function type as written. -/
def qualifiedParams : List CxxType → Except Abort (List String)
  | [] => .ok []
  | t :: ts => do
    let name ← qualifiedName t
    return (t.constness ++ name) :: (← qualifiedParams ts)

end

end CxxType

/-- A function type apart from its modifiers. -/
structure Signature where
  params : List CxxType
  result : CxxType
  /-- Does it own captured state, as a closure does? -/
  hasStorage : Bool
  deriving Repr

namespace Signature

/-- The type as written: `R(A, B)`, or `R(*)(A, B)` as a pointer. -/
def text (s : Signature) (asPointer : Bool) : Except Abort String := do
  let params ← CxxType.qualifiedParams s.params
  return CxxType.functionText params (← s.result.cxxName) asPointer

/-- One parameter in the name of the wrapper. -/
def paramLabel (t : CxxType) : Except Abort String := do
  let name ← t.cxxName
  return (if t.isConst then "Const" else "") ++ Scope.identifier name
    ++ (if t.isPointer then "Ptr" else "") ++ (if t.isReference then "Ref" else "")

/-- The name of the Lua function that calls a native function of this type. -/
def wrapperName (s : Signature) : Except Abort String := do
  let params ← s.params.mapM paramLabel
  let result ← s.result.cxxName
  return "Ret_" ++ Scope.identifier result ++ "_Params_" ++ "_".intercalate params

end Signature

namespace CxxType

mutual

/-- Every function type in this type, outermost first. -/
def signatures : CxxType → List Signature
  | .function ps r s _ => ⟨ps, r, s⟩ :: (signaturesOf ps ++ signatures r)
  | .array _ element _ => signatures element
  | .void _ | .numeric _ _ | .bool _ | .text _ _ | .enum _ _ | .record _ _ => []

/-- Every function type in these types, in order. -/
def signaturesOf : List CxxType → List Signature
  | [] => []
  | t :: ts => signatures t ++ signaturesOf ts

end

end CxxType

end LuaGlue
