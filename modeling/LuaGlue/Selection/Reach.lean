import LuaGlue.Binding.Registry
import LuaGlue.Notice

/-!
Which classes the types of a function reach.

A function can be bound only if every class it names is registered. There is one exception: a class that
is named with `struct` or `class` in front need not be declared where a value is only read, that is as a
parameter or inside an array that is a parameter. `CxxType.reach` walks through a type, and keeps

    forward    the classes of the exception          headers    those of classes inside arrays
-/

namespace LuaGlue

/-- What a walk through types has met. -/
structure Reached where
  /-- The headers of classes inside arrays. -/
  headers : NameSet := ∅
  /-- The names of undeclared classes, by scope. -/
  forward : NameMap NameSet := ∅

namespace Reached

/-- With the header of a class. -/
def addHeader (r : Reached) (source : String) : Reached :=
  { r with headers := r.headers.insert source }

/-- With a class that is not declared. -/
def addForward (r : Reached) (scope name : String) : Reached :=
  { r with forward := r.forward.alter scope fun names => (names.getD ∅).insert name }

/-- The undeclared classes as pairs of scope and name, in order. -/
def forwardClasses (r : Reached) : List (String × String) :=
  r.forward.entries.flatMap fun (scope, names) => names.toList.map (scope, ·)

end Reached

/-- Where a type stands. -/
structure Standing where
  /-- Is a value of the type only read? -/
  onlyRead : Bool
  /-- Is it inside an array? -/
  inArray : Bool
  deriving DecidableEq, Repr

/-- Goes on to a class. -/
def ClassRef.reach (registry : Registry) (standing : Standing) (ref : ClassRef) (met : Reached) :
    Reached × Option SkipReason :=
  match registry.find? ref.scope ref.name with
  | some c => (if standing.inArray then met.addHeader c.source else met, none)
  | none =>
    if standing.onlyRead && ref.forward.isSome then (met.addForward ref.scope ref.name, none)
    else (met, some (.unknownClass ref.qualified))

mutual

/-- Goes through a type, up to the first class that is missing. -/
def CxxType.reach (registry : Registry) (standing : Standing) (t : CxxType) (met : Reached) :
    Reached × Option SkipReason :=
  match t with
  | .record ref _ => ref.reach registry standing met
  | .function params result _ _ =>
    match reachAll registry { standing with onlyRead := false } params met with
    | (met, none) => result.reach registry { standing with onlyRead := false } met
    | failed => failed
  | .array _ element _ => element.reach registry { standing with inArray := true } met
  | .void _ | .numeric _ _ | .bool _ | .text _ _ | .enum _ _ => (met, none)

/-- Goes through types in order, up to the first class that is missing. -/
def reachAll (registry : Registry) (standing : Standing) (ts : List CxxType) (met : Reached) :
    Reached × Option SkipReason :=
  match ts with
  | [] => (met, none)
  | t :: rest =>
    match t.reach registry standing met with
    | (met, none) => reachAll registry standing rest met
    | failed => failed

end

/-- Goes through the parameters and the result of a function. -/
def BoundFunction.reach (registry : Registry) (f : BoundFunction) (met : Reached) :
    Reached × Option SkipReason :=
  match reachAll registry ⟨true, false⟩ f.paramTypes met with
  | (met, none) => f.result.reach registry ⟨false, false⟩ met
  | failed => failed

/-- What is found among functions: what their types reach, and the keys of those that cannot be bound,
each with a notice. -/
structure Unresolved where
  met : Reached
  keys : List String := []
  notices : List Notice := []

/-- After one more function. One with a native wrapper is bound whatever its types are. -/
def Unresolved.add (registry : Registry) (u : Unresolved) (entry : String × BoundFunction) : Unresolved :=
  let (key, f) := entry
  if f.wrapperName.isSome then u
  else
    match f.reach registry u.met with
    | (met, none) => { u with met }
    | (met, some reason) =>
      { met, keys := u.keys ++ [key], notices := u.notices ++ [.droppedFunction f.qualified reason] }

/-- What is found among functions, in key order. -/
def Functions.unresolved (registry : Registry) (functions : Functions) (met : Reached) : Unresolved :=
  functions.entries.foldl (Unresolved.add registry) { met }

end LuaGlue
