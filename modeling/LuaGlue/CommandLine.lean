import LuaGlue.Notice

/-!
The words of the command line: its arguments, and the lines it prints.

    [SETTINGS] [-o DIRECTORY | --output DIRECTORY]
-/

namespace LuaGlue

/-- What the command line asks for. -/
structure Arguments where
  settings : String := "bindings.toml"
  /-- The directory to write to, in place of the one in the settings. -/
  output : Option String := none
  deriving DecidableEq, Repr

/-- Why arguments make no sense. -/
inductive ArgumentError where
  | missingDirectory (option : String)
  | unknownOption (option : String)
  | surplus (argument : String)
  deriving DecidableEq, Repr

/-- The words that report the error. -/
def ArgumentError.message : ArgumentError → String
  | .missingDirectory option => s!"a directory is required after '{option}'"
  | .unknownOption option => s!"unexpected option '{option}'"
  | .surplus argument => s!"unexpected argument '{argument}'"

namespace Arguments

/-- Reads a word that stands alone: the name of the settings file. -/
def readWord (read : Arguments) (named : Bool) (word : String) : Except ArgumentError Arguments :=
  if word.startsWith "-" then .error (.unknownOption word)
  else if named then .error (.surplus word)
  else .ok { read with settings := word }

/-- Is the word an option that a directory follows? -/
def isOutputOption (word : String) : Bool := word = "-o" || word = "--output"

/-- Reads the arguments from here on; `named` is whether the settings have been named. -/
def parseFrom (read : Arguments) (named : Bool) : List String → Except ArgumentError Arguments
  | [] => .ok read
  | [word] =>
    if isOutputOption word then .error (.missingDirectory word) else readWord read named word
  | word :: next :: rest =>
    if isOutputOption word then parseFrom { read with output := some next } named rest
    else do parseFrom (← readWord read named word) true (next :: rest)

/-- Reads the arguments. -/
def parse (words : List String) : Except ArgumentError Arguments := parseFrom {} false words

end Arguments

/-- A field of a notice as it is printed. -/
def FieldValue.render : FieldValue → String
  | .text content => content
  | .count n => s!"{n}"

/-- A notice as one line. -/
def Notice.render (n : Notice) : String :=
  let fields := n.fields.map fun (name, value) => s!" {name}={value.render}"
  n.level.name.toUpper ++ " " ++ n.message ++ String.join fields

end LuaGlue
