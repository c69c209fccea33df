import LuaGlue.Declaration.Source
import LuaGlue.Selection.Finish

/-!
A whole run over the declarations of some files.

Both passes stop at the first file that cannot be loaded. Whatever happens, `Selected` holds the registry
as far as it has come, and the notices up to there.
-/

namespace LuaGlue

/-- Why a run over declarations fails. -/
inductive SelectionError where
  | source (cause : DeclarationError)
  | abort (cause : Abort)
  deriving DecidableEq, Repr

/-- The words that report the error. -/
def SelectionError.message : SelectionError → String
  | .source cause => cause.message
  | .abort cause => cause.message

/-- What comes out of a run. -/
structure Selected where
  registry : Registry
  notices : List Notice
  outcome : Except SelectionError Summary

namespace Selection

/-- The state after the first pass, up to the first error. -/
def learnAll (s : Selection) :
    List (Except DeclarationError Declaration) → Selection × Option SelectionError
  | [] => (s, none)
  | .error e :: _ => (s, some (.source e))
  | .ok d :: rest => (s.learn d).learnAll rest

/-- The state after the second pass, up to the first error. -/
def registerAll (s : Selection) :
    List (Except DeclarationError Declaration) → Selection × Option SelectionError
  | [] => (s, none)
  | .error e :: _ => (s, some (.source e))
  | .ok d :: rest =>
    match s.register d with
    | (s, none) => s.registerAll rest
    | (s, some cause) => (s, some (.abort cause))

/-- The state after both passes and the end, or after the first error. -/
def runAll (s : Selection) (stream : List (Except DeclarationError Declaration)) :
    Selection × Option SelectionError :=
  match s.learnAll stream with
  | (s, some e) => (s, some e)
  | (s, none) =>
    match s.registerAll stream with
    | (s, some e) => (s, some e)
    | (s, none) =>
      match s.finish with
      | (s, some cause) => (s, some (.abort cause))
      | (s, none) => (s, none)

end Selection

/-- Selects what is bound of the declarations of some files, and registers it. -/
def Registry.select (registry : Registry) (sources : List DeclarationSource) : Selected :=
  match (Selection.start registry).runAll (DeclarationSource.stream sources) with
  | (s, none) => ⟨s.registry, s.notices, .ok s.summary⟩
  | (s, some e) => ⟨s.registry, s.notices, .error e⟩

end LuaGlue
