import LuaGlue.CommandLine
import LuaGlue.Pipeline

/-!
The command line: generates the headers that a settings file describes, and writes them.

Notices and errors go to the standard error stream; the exit code tells whether the headers are there.
-/

namespace LuaGlue

/-- Does an action, or tells that it cannot be done. -/
def succeeds (action : IO Unit) : IO Bool := do
  try
    action
    return true
  catch _ => return false

/-- The disk as a place that a run works in. -/
def disk : FileSystem IO where
  read path := do
    try
      return some (← IO.FS.readFile path)
    catch _ => return none
  has path := succeeds (discard (IO.FS.Handle.mk path .read))
  makeDirectories path := succeeds (if path.isEmpty then pure () else IO.FS.createDirAll path)
  write path contents := succeeds (IO.FS.writeFile path contents)

/-- Runs with these arguments, and gives the exit code. -/
def runWith (arguments : Arguments) : IO UInt32 := do
  let report ← run disk arguments.settings arguments.output
  for notice in report.notices do
    if notice.level.rank ≤ Level.info.rank then IO.eprintln notice.render
  match report.outcome with
  | .ok directory =>
    IO.eprintln s!"bindings up to date in {directory}"
    return 0
  | .error e =>
    IO.eprintln s!"Error: {e.message}"
    return 1

end LuaGlue

def main (words : List String) : IO UInt32 :=
  match LuaGlue.Arguments.parse words with
  | .ok arguments => LuaGlue.runWith arguments
  | .error e => do
    IO.eprintln e.message
    return 2
