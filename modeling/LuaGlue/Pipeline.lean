import LuaGlue.Files.Path
import LuaGlue.Files.System
import LuaGlue.Glue.Bindings
import LuaGlue.Selection.Run
import LuaGlue.Settings

/-!
From a settings file to the headers.

    settings ──▶ declaration files ──▶ registry ──▶ generated files ──▶ disk

`generate` stops before the disk. Both work in any place that has the operations of a `FileSystem`, and
give the notices of what has happened together with the outcome.
-/

namespace LuaGlue

/-- Why a run produces nothing. -/
inductive RunError where
  | settings (cause : SettingsError)
  | selection (cause : SelectionError)
  /-- A state file cannot be rendered. -/
  | rendering (cause : Abort)
  /-- A directory cannot be made. -/
  | directory (path : String)
  /-- A file cannot be written. -/
  | output (path : String)
  deriving DecidableEq, Repr

/-- The words that report the error. -/
def RunError.message : RunError → String
  | .settings cause => cause.message
  | .selection cause => cause.message
  | .rendering cause => cause.message
  | .directory path => s!"creating directory {path}"
  | .output path => s!"writing output to {path}"

/-- The outcome of a run with the notices on the way. -/
structure Report (α : Type) where
  notices : List Notice
  outcome : Except RunError α

/-- Goes on after a success. -/
def Report.andThen {α β : Type} (r : Report α) (f : α → Report β) : Report β :=
  match r.outcome with
  | .error e => ⟨r.notices, .error e⟩
  | .ok a =>
    let next := f a
    ⟨r.notices ++ next.notices, next.outcome⟩

section

variable {m : Type → Type} [Monad m]

/-- The settings in a file. -/
def Settings.load (fs : FileSystem m) (path : String) : m (Except SettingsError Settings) := do
  match ← fs.read path with
  | none => return .error (.unreadable path)
  | some text =>
    match Settings.parse? text with
    | none => return .error (.malformed path)
    | some settings => return .ok settings

/-- The first of these paths that there is something at. -/
def firstPresent (fs : FileSystem m) : List String → m (Option String)
  | [] => return none
  | path :: rest => do
    if ← fs.has path then return some path else firstPresent fs rest

/-- Where a declaration file is: at its path if that is absolute, else next to the settings, else in the
first include path that has it. One that is nowhere counts as next to the settings. -/
def resolveDeclaration (fs : FileSystem m) (base : String) (includePaths : List String)
    (path : String) : m String := do
  if Path.isAbsolute path then return path
  else
    let nextTo := Path.join base path
    let others := includePaths.map fun directory => Path.join (Path.join base directory) path
    return (← firstPresent fs (nextTo :: others)).getD nextTo

/-- A declaration file as it is found. -/
def findDeclaration (fs : FileSystem m) (base : String) (includePaths : List String)
    (path : String) : m DeclarationSource := do
  let path ← resolveDeclaration fs base includePaths path
  return ⟨path, ← fs.read path⟩

end

/-- The notices about state files. -/
def Registry.Rendering.notices (r : Registry.Rendering) : List Notice :=
  r.states.map fun f =>
    .renderedState f.state f.classes.length f.functions.length f.enums.length

/-- The generated files of a registry. -/
def renderReport (registry : Registry) (cxxNamespace : String) : Report (List GeneratedFile) :=
  let rendering := registry.renderAll cxxNamespace
  match rendering.files with
  | .error cause => ⟨rendering.notices, .error (.rendering cause)⟩
  | .ok files => ⟨rendering.notices ++ [.generated files.length], .ok files⟩

/-- The registry of declarations. -/
def selectReport (settings : Settings) (sources : List DeclarationSource) : Report Registry :=
  let registry : Registry :=
    { patches := settings.patches, headers := NameSet.ofNames settings.extraIncludes }
  let selected := registry.select sources
  let loaded : Notice := .loadedSettings settings.output.cxxNamespace settings.declarations.length
  match selected.outcome with
  | .error cause => ⟨loaded :: selected.notices, .error (.selection cause)⟩
  | .ok summary => ⟨loaded :: selected.notices ++ [.ingested summary], .ok selected.registry⟩

/-- The generated files for settings and declaration files. -/
def generateFrom (settings : Settings) (sources : List DeclarationSource) :
    Report (List GeneratedFile) :=
  (selectReport settings sources).andThen fun registry =>
    renderReport registry settings.output.cxxNamespace

section

variable {m : Type → Type} [Monad m]

/-- The directory of a settings file. -/
def baseOf (settingsPath : String) : String := (Path.parent? settingsPath).getD "."

/-- The settings and the generated files for the settings in a file. -/
def generateWith (fs : FileSystem m) (settingsPath : String) :
    m (Report (Settings × List GeneratedFile)) := do
  match ← Settings.load fs settingsPath with
  | .error cause => return ⟨[], .error (.settings cause)⟩
  | .ok settings =>
    let sources ← settings.declarations.mapM
      (findDeclaration fs (baseOf settingsPath) settings.includePaths)
    let report := generateFrom settings sources
    return ⟨report.notices, report.outcome.map (settings, ·)⟩

/-- The generated files for the settings in a file. -/
def generate (fs : FileSystem m) (settingsPath : String) : m (Report (List GeneratedFile)) := do
  let report ← generateWith fs settingsPath
  return ⟨report.notices, report.outcome.map Prod.snd⟩

/-- Writes a generated file below a directory. -/
def writeFile (fs : FileSystem m) (directory : String) (file : GeneratedFile) :
    m (Except RunError Notice) := do
  let path := Path.join directory file.path
  let parent := (Path.parent? path).getD path
  if !(← fs.makeDirectories parent) then return .error (.directory parent)
  else if !(← fs.write path file.contents) then return .error (.output path)
  else return .ok (.wrote path file.contents.utf8ByteSize)

/-- Writes generated files below a directory, up to the first that cannot be written. -/
def writeFiles (fs : FileSystem m) (directory : String) : List GeneratedFile → m (Report Unit)
  | [] => return ⟨[], .ok ()⟩
  | file :: rest => do
    match ← writeFile fs directory file with
    | .error e => return ⟨[], .error e⟩
    | .ok notice =>
      let report ← writeFiles fs directory rest
      return ⟨notice :: report.notices, report.outcome⟩

/-- Generates the files and writes them, and gives the directory they are under: the given one, else the
one of the settings. -/
def run (fs : FileSystem m) (settingsPath : String) (output : Option String) : m (Report String) := do
  let generated ← generateWith fs settingsPath
  match generated.outcome with
  | .error e => return ⟨generated.notices, .error e⟩
  | .ok (settings, files) =>
    let directory := output.getD (Path.join (baseOf settingsPath) settings.output.directory)
    let written ← writeFiles fs directory files
    return ⟨generated.notices ++ written.notices, written.outcome.map fun _ => directory⟩

end

end LuaGlue
