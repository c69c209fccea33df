import LuaGlue.Selection.Reach
import LuaGlue.Selection.Register

/-!
The end of a run: what could not be decided before all declarations were known.

Requested bases are added, native wrappers are attached to their classes, and the functions that name a
class which was never declared are dropped. Then the states that anything is bound in are published.
-/

namespace LuaGlue.Selection

/-! ### Requested bases -/

/-- The state after a requested base. -/
def addRequestedBase (s : Selection) (derived base : String) : Selection × Option Abort :=
  let (scope, name) := Scope.splitQualified derived
  match s.registry.classId? scope name with
  | none => (s.note (.undeclaredDerived derived base), none)
  | some id =>
    let (registry, abort?) := addBaseNamed s.registry id base
    (s.withRegistry registry, abort?)

/-- The state after all requested bases, up to the first that closes a cycle. -/
def addRequestedBases (s : Selection) : List (String × String) → Selection × Option Abort
  | [] => (s, none)
  | (derived, base) :: rest =>
    match s.addRequestedBase derived base with
    | (s, none) => s.addRequestedBases rest
    | failed => failed

/-! ### Native wrappers -/

/-- The class of this qualified name, if it was exposed in this run. -/
def exposedClass? (s : Selection) (qualified : String) : Option BoundClass :=
  let (scope, name) := Scope.splitQualified qualified
  (s.registry.find? scope name).filter fun c => s.exposed.contains c.id

/-- A member that a native wrapper takes the place of. -/
def wrappedMember (c : BoundClass) (name wrapper source : String) : BoundFunction :=
  { BoundFunction.new name c.qualified CxxType.plainVoid with
    owner := some c.id
    wrapperName := some wrapper
    isRedirector := true
    source }

/-- The state with a member of a class set. -/
def setMember (s : Selection) (c : BoundClass) (kind : MemberKind) (key : String)
    (member : BoundFunction) : Selection :=
  s.modifyClass c.id fun c => c.withMembers kind ((c.members kind).insert key member)

/-- The state after a wrapper has taken the place of a member. -/
def attachRedirector (s : Selection) (p : Pending RedirectorRequest) : Selection :=
  let request := p.request
  match s.exposedClass? request.className with
  | none => s.note (.unboundRedirector request.className p.wrapper)
  | some c =>
    let member := { wrappedMember c request.function p.wrapper p.source with
      isStatic := request.isStatic, sharesHeader := false }
    s.setMember c (if request.isStatic then .static else .function) request.function member

/-- The state after a wrapper has become a metamethod. -/
def attachMetamethod (s : Selection) (p : Pending MetamethodRequest) : Selection :=
  let request := p.request
  if !metamethodNames.contains request.metamethod then
    s.note (.unknownMetamethod request.metamethod p.wrapper)
  else
    match s.exposedClass? request.className with
    | none => s.note (.unboundMetamethod request.className p.wrapper)
    | some c =>
      let member := wrappedMember c request.metamethod p.wrapper p.source
      let s := s.setMember c .metamethod request.metamethod member
      if p.source.isEmpty then s
      else s.withRegistry { s.registry with headers := s.registry.headers.insert p.source }

/-! ### Functions that name missing classes -/

/-- The kinds of members that are generated from a signature. -/
def generatedKinds : List MemberKind := [.function, .static, .constructor]

/-- The registry without the functions at these keys of a kind of members. -/
def dropMembers (id : ClassId) (kind : MemberKind) (keys : List String) (r : Registry) : Registry :=
  r.modifyClass id fun c => c.withMembers kind (keys.foldl NameMap.erase (c.members kind))

/-- What is found among the free functions and the members of exposed classes. -/
structure Survey where
  met : Reached := {}
  notices : List Notice := []
  functions : List String := []
  members : List (ClassId × MemberKind × List String) := []

/-- The survey after a kind of members of a class. -/
def Survey.addMembers (registry : Registry) (survey : Survey) (place : BoundClass × MemberKind) :
    Survey :=
  let (c, kind) := place
  let found := (c.members kind).unresolved registry survey.met
  { survey with
    met := found.met
    notices := survey.notices ++ found.notices
    members := survey.members ++ [(c.id, kind, found.keys)] }

/-- The survey of a registry. -/
def survey (registry : Registry) : Survey :=
  let free := registry.functions.unresolved registry {}
  let start : Survey := { met := free.met, notices := free.notices, functions := free.keys }
  let places := registry.exposed.flatMap fun c => generatedKinds.map (c, ·)
  places.foldl (Survey.addMembers registry) start

/-- The registry without what a survey has found to be unresolved. -/
def prune (registry : Registry) (found : Survey) : Registry :=
  let registry := { registry with functions := found.functions.foldl NameMap.erase registry.functions }
  found.members.foldl (fun r (id, kind, keys) => dropMembers id kind keys r) registry

/-- The state with a thin class for one that was named without being declared. -/
def addForward (s : Selection) (name : String × String) : Selection :=
  let s := s.note (.forwardClass (Scope.qualify name.1 name.2))
  s.withRegistry (s.registry.addThinClass name.2 name.1 "").1

/-- The state without functions that cannot be bound. -/
def dropUnresolved (s : Selection) : Selection :=
  let found := survey s.registry
  let dropped := found.functions.length + (found.members.flatMap fun (_, _, keys) => keys).length
  let s := { s with notices := s.notices ++ found.notices, skipped := s.skipped + dropped }
  let s := found.met.forwardClasses.foldl addForward (s.withRegistry (prune s.registry found))
  let headers := found.met.headers.toList.filter fun header => !header.isEmpty
  s.withRegistry { s.registry with headers := s.registry.headers.insertAll headers }

/-! ### The whole end -/

/-- The state after everything has been decided. -/
def finish (s : Selection) : Selection × Option Abort :=
  match s.addRequestedBases s.requests.bases with
  | (s, some abort) => (s, some abort)
  | (s, none) =>
    let s := s.redirectors.foldl attachRedirector s
    let s := s.metamethods.foldl attachMetamethod s
    let s := s.dropUnresolved
    (s.withRegistry { s.registry with states := s.registry.states.insertAll s.states.toList }, none)

/-- How much was found. -/
def summary (s : Selection) : Summary :=
  let members := s.registry.exposed.flatMap fun c => c.functions.values ++ c.statics.values
  { classes := s.exposed.length
    thinClasses := s.registry.classes.length - s.exposed.length
    functions := s.registry.functions.size + members.length
    enums := s.registry.enums.length
    skipped := s.skipped
    states := s.registry.states.size }

end LuaGlue.Selection
