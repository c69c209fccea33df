import LuaGlue.Binding.Class
import LuaGlue.Patch

/-!
Everything that one run has learned: classes, functions, enums, function types and headers.

Classes are kept in the order of registration and never removed, so a class is named by its place in
that order and an id stays valid. A qualified name leads to at most one class: `addClass` and
`addThinClass` look for it before they append.
-/

namespace LuaGlue

/-- The store of one run. -/
structure Registry where
  /-- Every class; the id of a class is its index. -/
  classes : List BoundClass := []
  enums : List BoundEnum := []
  patches : Patches := {}
  /-- Free functions by the path they have in Lua. -/
  functions : Functions := ∅
  /-- The function types that need a wrapper, by its name. -/
  signatures : NameMap Signature := ∅
  /-- The Lua states that anything is bound in. -/
  states : NameSet := ∅
  /-- Headers that every state file includes. -/
  headers : NameSet := ∅
  /-- Templates that stand for other templates. -/
  templates : NameMap String := ∅

namespace Registry

/-! ### Classes -/

/-- The class of this scope and name. -/
def find? (r : Registry) (scope name : String) : Option BoundClass :=
  r.classes.find? fun c => c.qualified == Scope.qualify scope name

/-- The id of the class of this scope and name. -/
def classId? (r : Registry) (scope name : String) : Option ClassId :=
  (r.find? scope name).map (·.id)

/-- The class with this id. -/
def class? (r : Registry) (id : ClassId) : Option BoundClass := r.classes[id]?

/-- The registry with one class changed. -/
def modifyClass (r : Registry) (id : ClassId) (f : BoundClass → BoundClass) : Registry :=
  { r with classes := r.classes.modify id f }

/-- The registry with one more class, and its id. -/
def appendClass (r : Registry) (name scope source : String) (state : Option String) :
    Registry × ClassId :=
  let id := r.classes.length
  ({ r with classes := r.classes ++ [{ id, name, scope, source, state }] }, id)

/-- A class with a Lua state; a header that is known is kept when none is given. -/
def expose (source state : String) (c : BoundClass) : BoundClass :=
  { c with state := some state, source := if source.isEmpty then c.source else source }

/-- Exposes a class. A thin one of this name is exposed in place; an exposed one is left alone. -/
def addClass (r : Registry) (name scope source state : String) :
    Except SkipReason (Registry × ClassId) :=
  match r.find? scope name with
  | none => .ok (r.appendClass name scope source (some state))
  | some c =>
    if c.isExposed then .error (.duplicateClass c.qualified c.id)
    else .ok (r.modifyClass c.id (expose source state), c.id)

/-- Finds the class of this name, or adds a thin one. -/
def addThinClass (r : Registry) (name scope source : String) : Registry × ClassId :=
  match r.find? scope name with
  | none => r.appendClass name scope source none
  | some c => (r, c.id)

/-- The classes that have a Lua state. -/
def exposed (r : Registry) : List BoundClass := r.classes.filter (·.isExposed)

/-! ### Enums -/

/-- Is an enum of this qualified name registered? -/
def hasEnum (r : Registry) (qualified : String) : Bool :=
  r.enums.any fun e => e.qualified == qualified

/-- The registry with one more enum, unless its name is taken. -/
def addEnum (r : Registry) (e : BoundEnum) : Except SkipReason Registry :=
  if r.hasEnum e.qualified then .error (.duplicateEnum e.qualified)
  else .ok { r with enums := r.enums ++ [e] }

/-! ### Function types -/

/-- The registry with a wrapper for this function type, unless one of the name is there. -/
def addSignature (r : Registry) (key : String) (s : Signature) : Registry :=
  if r.signatures.contains key then r
  else { r with signatures := r.signatures.insert key s }

/-- Adds function types up to the first whose wrapper has no name. -/
def addSignatures (r : Registry) : List Signature → Registry × Option Abort
  | [] => (r, none)
  | s :: rest =>
    match s.wrapperName with
    | .ok key => (r.addSignature key s).addSignatures rest
    | .error abort => (r, some abort)

/-- Adds every function type in a type. -/
def registerSignatures (r : Registry) (t : CxxType) : Registry × Option Abort :=
  r.addSignatures t.signatures

end Registry

end LuaGlue
