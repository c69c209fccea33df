import LuaGlue.Call.Extraction
import LuaGlue.Call.Messages

/-!
The call of a native function from Lua.

A function with one overload reads its arguments and calls. With several, generated code first finds
out which one is meant: for each overload a *candidate* has a guard (the number of arguments and every
coarse check), and under it the finer checks; the indices of those that pass are collected. None or
more than one is an error, exactly one is dispatched to its *branch*.

    candidates   if ((n == 1) && (lua_isnumber(1)))  { finer checks → insert 0 }
                 if ((n == 2) && ...)                { finer checks → insert 1 }
    verdict      size > 1 → ambiguous       empty → no overload
    branches     if (selected == 0) { arguments, call } else if (selected == 1) { ... } else { error }

`CallCode.of` makes the code as data; `render` writes it.
-/

namespace LuaGlue

/-- The native call itself. -/
structure NativeCall where
  /-- What stands before the parenthesis. -/
  callee : String
  arity : Nat
  /-- The marks of the result, unless there is none. -/
  resultMarks : Option String
  deriving DecidableEq, Repr

namespace NativeCall

/-- What calls the function: a member through its object, a constructor by its class. -/
def calleeOf (f : BoundFunction) : String :=
  if f.isMember then s!"self->{f.name}" else if f.isConstructor then f.scope else f.qualified

/-- The marks of the result of a function, unless it has none. -/
def marksOf (result : CxxType) : Option String :=
  if result.isVoidValue then none else some result.marks

/-- The call of one overload. -/
def ofOverload (f : BoundFunction) (overload : Overload) : NativeCall :=
  { callee := calleeOf f, arity := overload.length, resultMarks := marksOf f.result }

/-- The parameters as they are passed on. -/
def arguments (arity : Nat) : String :=
  Text.separated ", " ((List.range arity).map fun i => s!"param_{i + 1}")

/-- What keeps the result. -/
def capture (marks : Option String) : String :=
  match marks with
  | some marks => s!"auto{marks} return_value = "
  | none => ""

/-- The statement of the call. -/
def render (layout : Layout) (c : NativeCall) : String :=
  let start := match layout, c.resultMarks with
    | _, none => Text.blanks 8
    | .body, some _ => Text.blanks 8 ++ capture c.resultMarks
    | .branch, some _ => Text.blanks 16 ++ "return "
  start ++ c.callee ++ "(" ++ arguments c.arity ++ ");\n\n"

end NativeCall

/-- What follows the reading of the arguments: the call, and the saved parameters it drops. -/
structure CallTail where
  call : NativeCall
  /-- The slots whose saved parameters are dropped. -/
  dropped : List Nat
  deriving DecidableEq, Repr

/-- The statements. -/
def CallTail.render (layout : Layout) (t : CallTail) : String :=
  t.call.render layout ++ String.join (t.dropped.map Closure.resetSaved)

/-- The test whether one overload is meant. -/
structure Candidate where
  index : Nat
  arity : Nat
  /-- The coarse check of each argument. -/
  guards : List String
  /-- The finer check of each argument. -/
  tiebreaks : List Tiebreak
  deriving DecidableEq, Repr

namespace Candidate

/-- The test for the overload at an index. -/
def ofOverload (overload : Overload) (index : Nat) : Candidate :=
  { index, arity := overload.length,
    guards := overload.zipIdx.map fun (param, i) => param.type.validate (i + 1 : Nat),
    tiebreaks := overload.zipIdx.map fun (param, i) => param.type.tiebreak (i + 1 : Nat) }

/-- The variable that holds the outcome of a finer check. -/
def condition (slot : Nat) : String := s!"param_overload_resolution_condition_{slot}"

/-- The guard: the number of arguments and every coarse check. -/
def renderGuard (c : Candidate) : String :=
  s!"        if ((num_params_on_stack == {c.arity}) &&\n"
    ++ Text.separated " &&\n" (c.guards.map fun guard => s!"            ({guard})") ++ ")\n"

/-- One finer check. -/
def renderTiebreak (slot : Nat) (t : Tiebreak) : String :=
  Text.line 12 s!"bool {condition slot} = [=]() \x7b" ++ t.render ++ "\n"
    ++ Text.line 12 "\x7d();" ++ "\n"

/-- The conjunction of the finer checks. -/
def renderConjunction (c : Candidate) : String :=
  let terms := (List.range c.tiebreaks.length).map fun i =>
    (if i = 0 then "" else Text.blanks 16) ++ condition (i + 1)
  Text.blanks 12 ++ "if (" ++ Text.separated " &&\n" terms ++ ")\n"

/-- The whole test. -/
def render (c : Candidate) : String :=
  c.renderGuard
    ++ Text.line 8 "\x7b"
    ++ String.join (c.tiebreaks.zipIdx.map fun (t, i) => renderTiebreak (i + 1) t)
    ++ c.renderConjunction
    ++ Text.lines 12 ["\x7b", s!"    matching_overloads.emplace({c.index});", "\x7d"]
    ++ Text.line 8 "\x7d" ++ "\n"

end Candidate

/-- The code that runs when one overload is meant. -/
structure Branch where
  index : Nat
  extractions : List Extraction
  /-- Nothing, when only the arguments are wanted. -/
  tail : Option CallTail
  deriving DecidableEq, Repr

/-- The branch, with the test of the chosen index. -/
def Branch.render (b : Branch) : String :=
  let chain := if b.index = 0 then "" else "else "
  Text.lines 12 [s!"{chain}if (selected_overload == {b.index})", "\x7b"]
    ++ Extraction.renderAll .branch b.extractions
    ++ ((b.tail.map (·.render .branch)).getD "")
    ++ Text.line 12 "\x7d"

/-- The code of a call. -/
inductive CallCode where
  /-- One overload. -/
  | single (extractions : List Extraction) (tail : Option CallTail)
  /-- Several overloads of the function of this name. -/
  | overloaded (name : String) (candidates : List Candidate) (resultMarks : Option String)
      (branches : List Branch)
  deriving DecidableEq, Repr

namespace CallCode

/-- The branches from an index on. Saved parameters are dropped together with those that the branches
before have saved. -/
def branchesFrom (f : BoundFunction) (registry : Registry) (withCall : Bool) (index : Nat)
    (saved : List Nat) : List Overload → Except Abort (List Branch)
  | [] => .ok []
  | overload :: rest => do
    let extractions ← Extraction.ofOverload .branch registry overload
    let saved := saved ++ extractions.flatMap (·.savedSlots)
    let tail := if withCall then some ⟨.ofOverload f overload, saved⟩ else none
    return ⟨index, extractions, tail⟩ :: (← branchesFrom f registry withCall (index + 1) saved rest)

/-- The code that reads the arguments of a function and, if wanted, calls it. -/
def of (f : BoundFunction) (registry : Registry) (withCall : Bool) : Except Abort CallCode :=
  match f.overloads with
  | [] => .error (.noOverloads f.name)
  | [overload] => do
    let extractions ← Extraction.ofOverload .body registry overload
    let dropped := extractions.flatMap (·.savedSlots)
    return .single extractions (if withCall then some ⟨.ofOverload f overload, dropped⟩ else none)
  | overloads => do
    let candidates := overloads.zipIdx.map fun (overload, i) => Candidate.ofOverload overload i
    let branches ← branchesFrom f registry withCall 0 [] overloads
    return .overloaded f.name candidates (NativeCall.marksOf f.result) branches

/-- Code is made for a function with one overload, or for one with several. -/
theorem of_cases {f : BoundFunction} {registry : Registry} {withCall : Bool} {code : CallCode}
    (h : of f registry withCall = .ok code) :
    (∃ overload extractions, f.overloads = [overload]
        ∧ Extraction.ofOverload .body registry overload = .ok extractions
        ∧ code = .single extractions
          (if withCall then some ⟨.ofOverload f overload, extractions.flatMap (·.savedSlots)⟩ else none))
      ∨ ∃ branches, 2 ≤ f.overloads.length ∧ branchesFrom f registry withCall 0 [] f.overloads = .ok branches
        ∧ code = .overloaded f.name (f.overloads.zipIdx.map fun (overload, i) => Candidate.ofOverload overload i)
          (NativeCall.marksOf f.result) branches := by
  unfold of at h
  split at h
  · cases h
  · next overload hone =>
    simp only [bind, Except.bind] at h
    split at h
    · cases h
    · next extractions hreads =>
      cases h
      exact .inl ⟨overload, extractions, hone, hreads, rfl⟩
  · next hnone hone =>
    have hmany : 2 ≤ f.overloads.length := by
      cases hoverloads : f.overloads with
      | nil => exact absurd hoverloads hnone
      | cons first rest =>
        cases rest with
        | nil => exact absurd hoverloads (hone first)
        | cons => simp
    simp only [bind, Except.bind] at h
    split at h
    · cases h
    · next branches hbranches =>
      cases h
      exact .inr ⟨branches, hmany, hbranches, rfl⟩

/-- The code that raises an error unless exactly one overload is meant. -/
def renderVerdict (name : String) : String :=
  Text.lines 8
    ["if (matching_overloads.size() > 1)",
     "\x7b",
     s!"    luaL_error(lua_state, \"{Messages.ambiguousOverload name}\");",
     "\x7d",
     "else if (matching_overloads.empty())",
     "\x7b",
     s!"    luaL_error(lua_state, \"{Messages.noOverload name}\");",
     "\x7d"] ++ "\n"
    ++ Text.line 8 "auto selected_overload = *matching_overloads.begin();" ++ "\n"

/-- The last branch: no index was chosen. -/
def renderUncaught : String :=
  Text.lines 12
    ["else",
     "\x7b",
     s!"    luaL_error(lua_state, \"{Messages.uncaughtResolution}\");",
     "    throw std::runtime_error\x7b\"\"\x7d;",
     "\x7d"]

/-- The code as text. -/
def render : CallCode → String
  | .single extractions tail =>
    Extraction.renderAll .body extractions ++ ((tail.map (·.render .body)).getD "")
  | .overloaded name candidates resultMarks branches =>
    Text.lines 8
      ["std::unordered_set<int> matching_overloads\x7b\x7d;",
       "int num_matching_overloads\x7b\x7d;",
       "auto num_params_on_stack = lua_gettop(lua_state);"]
      ++ String.join (candidates.map (·.render))
      ++ renderVerdict name
      ++ Text.line 8 s!"{NativeCall.capture resultMarks}[=]() \x7b"
      ++ String.join (branches.map (·.render))
      ++ renderUncaught
      ++ Text.line 8 "\x7d();" ++ "\n"

end CallCode

end LuaGlue
