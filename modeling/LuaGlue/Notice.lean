import LuaGlue.Annotation
import LuaGlue.Failure

/-!
What a run tells its user on the way.

A notice is something that happened; `level`, `message` and `fields` put it into the words of the log.
Whatever is left out of the bindings is reported by a notice, so nothing is lost in silence.
-/

namespace LuaGlue

/-- How much a notice matters, the most first. -/
inductive Level where
  | error
  | warn
  | info
  | debug
  | trace
  deriving DecidableEq, Repr

/-- The name of a level. -/
def Level.name : Level → String
  | .error => "error"
  | .warn => "warn"
  | .info => "info"
  | .debug => "debug"
  | .trace => "trace"

/-- The place of a level in the order. -/
def Level.rank : Level → Nat
  | .error => 0
  | .warn => 1
  | .info => 2
  | .debug => 3
  | .trace => 4

/-- The value of a field of a notice. -/
inductive FieldValue where
  | text (content : String)
  | count (n : Nat)
  deriving DecidableEq, Repr

/-- How much a run has found. -/
structure Summary where
  classes : Nat
  thinClasses : Nat
  functions : Nat
  enums : Nat
  skipped : Nat
  states : Nat
  deriving DecidableEq, Repr

/-- Something that happened in a run. -/
inductive Notice where
  /-- A request of a kind that there is not. -/
  | unknownRequest (kind target : String)
  /-- A request that lacks something. -/
  | malformedRequest (comment : String) (error : AnnotationError)
  | exposingClass (name state : String) (line : Option Nat)
  /-- A class that is exposed already, from the header `existing`. -/
  | duplicateClass (name source existing : String) (reason : SkipReason)
  | thinClass (name : String)
  | unexposedMember (function : String)
  | operatorOverload (function : String)
  | redirected (function : String)
  | duplicateMember (function : String) (reason : SkipReason)
  | unrequestedFunction (function : String)
  | duplicateFunction (function luaName : String) (reason : SkipReason)
  | unrequestedEnum (name : String)
  | duplicateEnum (name source : String) (reason : SkipReason)
  /-- A type of a function cannot be read. -/
  | skippedFunction (function param : String) (reason : SkipReason)
  | unwrappedSignature (error : Abort)
  | undeclaredDerived (name base : String)
  | unboundRedirector (name wrapper : String)
  | unknownMetamethod (metamethod wrapper : String)
  | unboundMetamethod (name wrapper : String)
  | forwardClass (name : String)
  /-- A function that names a class which was never declared. -/
  | droppedFunction (function : String) (reason : SkipReason)
  | renderedState (state : String) (classes functions enums : Nat)
  | loadedSettings (cxxNamespace : String) (declarations : Nat)
  | ingested (summary : Summary)
  | generated (files : Nat)
  | wrote (path : String) (size : Nat)
  deriving DecidableEq, Repr

namespace Notice

/-- The level of a notice. -/
def level : Notice → Level
  | .unknownRequest .. | .malformedRequest .. | .duplicateClass .. | .duplicateEnum ..
  | .skippedFunction .. | .unwrappedSignature .. | .undeclaredDerived .. | .unboundRedirector ..
  | .unknownMetamethod .. | .unboundMetamethod .. | .droppedFunction .. => .warn
  | .loadedSettings .. | .ingested .. | .generated .. | .wrote .. => .info
  | .exposingClass .. | .operatorOverload .. | .redirected .. | .duplicateMember ..
  | .duplicateFunction .. | .forwardClass .. | .renderedState .. => .debug
  | .thinClass .. | .unexposedMember .. | .unrequestedFunction .. | .unrequestedEnum .. => .trace

/-- A reason for which something is left out. -/
def skipping (reason : SkipReason) : String := s!"{reason.message}, skipping"

/-- The words of a notice. -/
def message : Notice → String
  | .unknownRequest .. => "unknown LuaLate request kind"
  | .malformedRequest .. => "ignoring malformed binding request"
  | .exposingClass .. => "exposing class"
  | .duplicateClass _ _ _ reason => skipping reason
  | .thinClass _ => "thin class"
  | .unexposedMember _ => "member of an unexposed class"
  | .operatorOverload _ => "operator overloads are not bound"
  | .redirected _ => "redirected, no wrapper generated"
  | .duplicateMember _ reason => skipping reason
  | .unrequestedFunction _ | .unrequestedEnum _ => "no binding requested"
  | .duplicateFunction _ _ reason => skipping reason
  | .duplicateEnum _ _ reason => skipping reason
  | .skippedFunction .. => "skipping function"
  | .unwrappedSignature _ => "function signature cannot be wrapped"
  | .undeclaredDerived .. => "extra base for an undeclared class"
  | .unboundRedirector .. => "redirector for a class without bindings"
  | .unknownMetamethod .. => "unknown metamethod"
  | .unboundMetamethod .. => "metamethod for a class without bindings"
  | .forwardClass _ => "thin class for forward declaration"
  | .droppedFunction .. => "dropping function"
  | .renderedState .. => "rendered state file"
  | .loadedSettings .. => "loaded configuration"
  | .ingested _ => "ingested declarations"
  | .generated _ => "generated bindings"
  | .wrote .. => "wrote bindings"

/-- A line number as the log shows it. -/
def lineText : Option Nat → String
  | some line => s!"Some({line})"
  | none => "None"

/-- The named fields of a notice. -/
def fields : Notice → List (String × FieldValue)
  | .unknownRequest kind target => [("kind", .text kind), ("target", .text target)]
  | .malformedRequest comment error => [("comment", .text comment), ("error", .text error.message)]
  | .exposingClass name state line =>
    [("class", .text name), ("state", .text state), ("line", .text (lineText line))]
  | .duplicateClass name source existing _ =>
    [("class", .text name), ("source", .text source), ("existing", .text existing)]
  | .thinClass name | .forwardClass name => [("class", .text name)]
  | .unexposedMember function | .operatorOverload function | .redirected function
  | .duplicateMember function _ | .unrequestedFunction function => [("function", .text function)]
  | .duplicateFunction function luaName _ =>
    [("function", .text function), ("lua_name", .text luaName)]
  | .unrequestedEnum name => [("enum_name", .text name)]
  | .duplicateEnum name source _ => [("enum_name", .text name), ("source", .text source)]
  | .skippedFunction function param reason =>
    [("function", .text function), ("param", .text param), ("reason", .text reason.message)]
  | .unwrappedSignature error => [("error", .text error.message)]
  | .undeclaredDerived name base => [("class", .text name), ("base", .text base)]
  | .unboundRedirector name wrapper | .unboundMetamethod name wrapper =>
    [("class", .text name), ("wrapper", .text wrapper)]
  | .unknownMetamethod metamethod wrapper =>
    [("metamethod", .text metamethod), ("wrapper", .text wrapper)]
  | .droppedFunction function reason =>
    [("function", .text function), ("reason", .text reason.message)]
  | .renderedState state classes functions enums =>
    [("state", .text state), ("classes", .count classes), ("functions", .count functions),
     ("enums", .count enums)]
  | .loadedSettings cxxNamespace declarations =>
    [("namespace", .text cxxNamespace), ("declarations", .count declarations)]
  | .ingested s =>
    [("classes", .count s.classes), ("thin_classes", .count s.thinClasses),
     ("functions", .count s.functions), ("enums", .count s.enums), ("skipped", .count s.skipped),
     ("states", .count s.states)]
  | .generated files => [("files", .count files)]
  | .wrote path size => [("path", .text path), ("size", .count size)]

end Notice

end LuaGlue
