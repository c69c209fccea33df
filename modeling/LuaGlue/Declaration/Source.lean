import LuaGlue.Declaration.Document

/-!
The sequence of declarations that a run works on.

It is the concatenation of what several files declare. A file that cannot be read, or whose text is
malformed, contributes an error in place of declarations, and the files after it are not affected.
-/

namespace LuaGlue

/-- A declaration file as found: its path, and its text if it could be read. -/
structure DeclarationSource where
  path : String
  text : Option String
  deriving DecidableEq, Repr

/-- Why a file declares nothing. -/
inductive DeclarationError where
  | unreadable (path : String)
  | malformed (path : String)
  deriving DecidableEq, Repr

/-- The words that report the error. -/
def DeclarationError.message : DeclarationError → String
  | .unreadable path => s!"failed to read declaration file {path}"
  | .malformed path => s!"failed to parse declaration file {path}"

namespace DeclarationSource

/-- What one file declares. -/
def load (source : DeclarationSource) : Except DeclarationError (List Declaration) :=
  match source.text with
  | none => .error (.unreadable source.path)
  | some text =>
    match DeclarationDocument.parse? text with
    | none => .error (.malformed source.path)
    | some document => .ok document.declarations

/-- What one file contributes to the sequence. -/
def items (source : DeclarationSource) : List (Except DeclarationError Declaration) :=
  match source.load with
  | .error e => [.error e]
  | .ok declarations => declarations.map .ok

/-- The sequence that several files make. -/
def stream (sources : List DeclarationSource) : List (Except DeclarationError Declaration) :=
  sources.flatMap items

end DeclarationSource

end LuaGlue
