import LuaGlue.Annotation
import LuaGlue.Notice
import LuaGlue.NameMap
import LuaGlue.Scope

/-!
Requests for bindings that comments make.

A comment asks for something by naming the Lua state it is for, `LuaStateTypes(state)`, and one of

    LuaLate(Class, target, scope)                      LuaAddMetamethod(class, metamethod, wrapper)
    LuaLate(FreeFunction, target, scope, alias)        LuaMapTemplateClass(from, to)
    LuaLate(CustomFreeFunction, name, wrapper, scope)  LuaAddBaseToClass(class, base)
    LuaLate(Enum, target, scope)                       LuaMemberFunctionRedirector(class, name, wrapper)
                                                       LuaStaticMemberFunctionRedirector(...)

`Request.of` reads the request of a comment, and `Requests` keeps all of them by canonical name.
-/

namespace LuaGlue

/-- A class or an enum that is to be bound. -/
structure TypeRequest where
  state : String
  /-- The scope in Lua, if one is given. -/
  scope : Option String
  deriving DecidableEq, Repr

/-- A free function that is to be bound. -/
structure FunctionRequest where
  state : String
  scope : String
  /-- The names in Lua; those after the first are aliases. -/
  names : List String
  deriving DecidableEq, Repr

/-- A native wrapper that is to be a metamethod. -/
structure MetamethodRequest where
  className : String
  metamethod : String
  deriving DecidableEq, Repr

/-- A native wrapper that is to take the place of a member. -/
structure RedirectorRequest where
  className : String
  function : String
  isStatic : Bool
  deriving DecidableEq, Repr

/-- What one comment asks for. -/
inductive Request where
  | record (target : String) (request : TypeRequest)
  /-- One Lua name for a free function. -/
  | function (target state scope luaName : String)
  /-- One Lua name for a native wrapper. -/
  | customFunction (wrapper state scope luaName : String)
  | enum (target : String) (request : TypeRequest)
  | metamethod (wrapper : String) (request : MetamethodRequest)
  | redirector (wrapper : String) (request : RedirectorRequest)
  /-- A template that stands for another one. -/
  | template (source target : String)
  | base (derived base : String)
  /-- A kind of request that there is not. -/
  | unknown (kind target : String)
  deriving DecidableEq, Repr

namespace Request

/-- The annotation of this name, if it has so many parameters. -/
def withParams? (annotations : Annotations) (name : String) (count : Nat) : Option Annotation :=
  (annotations.get? name).filter fun a => count ≤ a.params.length

/-- The request to bind something that is declared elsewhere. -/
def late (state : String) (a : Annotation) : Except AnnotationError Request := do
  let target := Scope.canonical (← a.param 1)
  let (targetScope, targetName) := Scope.splitQualified target
  let typeRequest : TypeRequest := ⟨state, (a.optional 2).map Scope.normalize⟩
  match ← a.param 0 with
  | "Class" => return .record target typeRequest
  | "Enum" => return .enum target typeRequest
  | "FreeFunction" =>
    let scope := match a.optional 2 with
      | some scope => if scope = "_" then targetScope else Scope.normalize scope
      | none => targetScope
    return .function target state scope ((a.optional 3).getD targetName)
  | "CustomFreeFunction" =>
    let wrapper := Scope.canonical (← a.param 2)
    return .customFunction wrapper state (((a.optional 3).map Scope.normalize).getD targetScope)
      targetName
  | kind => return .unknown kind target

/-- The request to make a native wrapper a metamethod. -/
def addMetamethod (a : Annotation) : Except AnnotationError Request := do
  return .metamethod (Scope.canonical (← a.param 2))
    ⟨Scope.canonical (← a.param 0), ← a.param 1⟩

/-- The request to let a native wrapper take the place of a member. -/
def redirect (isStatic : Bool) (a : Annotation) : Except AnnotationError Request := do
  return .redirector (Scope.canonical (← a.param 2))
    ⟨Scope.canonical (← a.param 0), ← a.param 1, isStatic⟩

/-- The redirection of a member that annotations ask for, and whether the member is static. -/
def redirection? (annotations : Annotations) : Option (Bool × Annotation) :=
  let found := match annotations.get? "LuaMemberFunctionRedirector" with
    | some a => some (false, a)
    | none => (annotations.get? "LuaStaticMemberFunctionRedirector").map (true, ·)
  found.filter fun (_, a) => 3 ≤ a.params.length

/-- What annotations ask for: nothing unless they name a state. -/
def of (annotations : Annotations) : Except AnnotationError (Option Request) :=
  match annotations.get? "LuaStateTypes" with
  | none => .ok none
  | some stateTypes => do
    let state ← stateTypes.param 0
    if let some a := withParams? annotations "LuaLate" 2 then some <$> late state a
    else if let some a := withParams? annotations "LuaAddMetamethod" 3 then some <$> addMetamethod a
    else if let some a := withParams? annotations "LuaMapTemplateClass" 2 then
      return some (.template (Scope.canonical (← a.param 0)) (Scope.canonical (← a.param 1)))
    else if let some a := withParams? annotations "LuaAddBaseToClass" 2 then
      return some (.base (Scope.canonical (← a.param 0)) (Scope.canonical (← a.param 1)))
    else if let some (isStatic, a) := redirection? annotations then some <$> redirect isStatic a
    else return none

end Request

/-- All requests, by canonical name. -/
structure Requests where
  classes : NameMap TypeRequest := ∅
  functions : NameMap FunctionRequest := ∅
  /-- By the native wrapper. -/
  customFunctions : NameMap FunctionRequest := ∅
  enums : NameMap TypeRequest := ∅
  /-- By the native wrapper. -/
  metamethods : NameMap MetamethodRequest := ∅
  /-- By the native wrapper. -/
  redirectors : NameMap RedirectorRequest := ∅
  /-- Derived classes and bases, in the order of the requests. -/
  bases : List (String × String) := []

namespace Requests

/-- The request for a function with one more name. The first request says state and scope. -/
def addName (state scope luaName : String) : Option FunctionRequest → FunctionRequest
  | none => ⟨state, scope, [luaName]⟩
  | some request => { request with names := request.names ++ [luaName] }

/-- The requests with one more. A template is no concern of theirs. -/
def add (rs : Requests) : Request → Requests
  | .record target request => { rs with classes := rs.classes.insert target request }
  | .function target state scope luaName =>
    { rs with functions := rs.functions.alter target (addName state scope luaName) }
  | .customFunction wrapper state scope luaName =>
    { rs with customFunctions := rs.customFunctions.alter wrapper (addName state scope luaName) }
  | .enum target request => { rs with enums := rs.enums.insert target request }
  | .metamethod wrapper request => { rs with metamethods := rs.metamethods.insert wrapper request }
  | .redirector wrapper request => { rs with redirectors := rs.redirectors.insert wrapper request }
  | .base derived base => { rs with bases := rs.bases ++ [(derived, base)] }
  | .template _ _ | .unknown _ _ => rs

/-- Does a native wrapper take the place of this member? -/
def isRedirected (rs : Requests) (className function : String) : Bool :=
  rs.redirectors.values.any fun r => r.className == className && r.function == function

end Requests

/-- The state that a comment names for the very declaration it belongs to. -/
def inlineState? (comment : String) : Option String :=
  ((Annotations.parse comment).get? "Lua").bind (·.optional 0)

end LuaGlue
