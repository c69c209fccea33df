import LuaGlue.Binding.Inheritance
import LuaGlue.Declaration.Basic
import LuaGlue.Notice
import LuaGlue.Selection.Request
import LuaGlue.Spelling.Convert

/-!
The state of a run that selects what is bound.

A run goes over the declarations twice. The first time it gathers requests and the names of all classes
and enums, so that a spelling can be resolved wherever the name is declared; the second time it registers
what was asked for. `Selection.learn` is one step of the first pass; the steps of the second pass are in
`Selection.Register`.
-/

namespace LuaGlue

/-- A native wrapper that has been declared, and waits for its class. -/
structure Pending (α : Type) where
  request : α
  wrapper : String
  source : String

/-- The state of a run. -/
structure Selection where
  registry : Registry
  known : KnownNames := {}
  requests : Requests := {}
  /-- The exposed class whose members are being registered. -/
  current : Option ClassId := none
  /-- The classes exposed in this run. -/
  exposed : List ClassId := []
  redirectors : List (Pending RedirectorRequest) := []
  metamethods : List (Pending MetamethodRequest) := []
  /-- The states that anything was bound in. -/
  states : NameSet := ∅
  skipped : Nat := 0
  /-- What has happened so far, in order. -/
  notices : List Notice := []

namespace Selection

/-- The state before the first declaration: every state file includes what the patches need. -/
def start (registry : Registry) : Selection :=
  { registry :=
      { registry with headers := registry.headers.insertAll registry.patches.headers } }

/-- The state after one more notice. -/
def note (s : Selection) (n : Notice) : Selection := { s with notices := s.notices ++ [n] }

/-- The state after one more thing that is left out. -/
def skip (s : Selection) (n : Notice) : Selection := { s.note n with skipped := s.skipped + 1 }

/-- The state with another registry. -/
def withRegistry (s : Selection) (registry : Registry) : Selection := { s with registry }

/-- The state with one class changed. -/
def modifyClass (s : Selection) (id : ClassId) (f : BoundClass → BoundClass) : Selection :=
  s.withRegistry (s.registry.modifyClass id f)

/-- The state with something bound in a Lua state. -/
def bindIn (s : Selection) (state : String) : Selection := { s with states := s.states.insert state }

/-! ### The first pass -/

/-- The names after a declaration. -/
def learnName (known : KnownNames) : Declaration → KnownNames
  | .record c => known.addClass c.scope c.name
  | .enum e => known.addEnum e.scope e.name
  | _ => known

/-- The state after a request. -/
def accept (s : Selection) : Request → Selection
  | .template source target =>
    s.withRegistry { s.registry with templates := s.registry.templates.insert source target }
  | .unknown kind target => s.note (.unknownRequest kind target)
  | request => { s with requests := s.requests.add request }

/-- The state after the comment of a declaration. -/
def heed (s : Selection) (comment : String) : Selection :=
  match Request.of (Annotations.parse comment) with
  | .error e => s.note (.malformedRequest comment e)
  | .ok none => s
  | .ok (some request) => s.accept request

/-- The state after the first pass has met a declaration. -/
def learn (s : Selection) (d : Declaration) : Selection :=
  { s with known := learnName s.known d }.heed d.comment

/-! ### Signatures -/

/-- The parameters of a function, each with its type; or the name of the first one whose type cannot be
read. -/
def convertParams (ctx : Spelling.Context) (scope : String) :
    List DeclaredParam → Except (String × SkipReason) Overload
  | [] => .ok []
  | p :: rest =>
    match Spelling.convert ctx p.type scope with
    | .error reason => .error (p.name, reason)
    | .ok type => do return ⟨p.name, type⟩ :: (← convertParams ctx scope rest)

/-- The type of the result of a function. A constructor makes an object of its class. -/
def convertResult (ctx : Spelling.Context) (f : DeclaredFunction) :
    Except (String × SkipReason) CxxType :=
  match f.owner, f.isConstructor with
  | some (scope, name), true => .ok (.record { name, scope } {})
  | _, _ => (Spelling.convert ctx f.returns f.scope).mapError (("return", ·))

/-- The parameters and the type of the result of a function. -/
def signature (s : Selection) (f : DeclaredFunction) :
    Except (String × SkipReason) (Overload × CxxType) := do
  let ctx := Spelling.Context.of s.registry s.known
  let overload ← convertParams ctx f.scope f.params
  return (overload, ← convertResult ctx f)

/-- The state after the function types in a type have got their wrappers. -/
def wrapSignatures (s : Selection) (t : CxxType) : Selection :=
  match s.registry.registerSignatures t with
  | (registry, none) => s.withRegistry registry
  | (registry, some e) => (s.withRegistry registry).note (.unwrappedSignature e)

/-- The state after the function types of an overload have got their wrappers. -/
def wrapAll (s : Selection) (overload : Overload) (result : CxxType) : Selection :=
  (overload.map Param.type ++ [result]).foldl wrapSignatures s

end Selection

end LuaGlue
