import LuaGlue.Patch
import LuaGlue.Toml.Decode
import LuaGlue.Toml.Reader

/-!
The settings of a run, written as a TOML document. Every setting has a default:

    declarations, include_paths, extra_includes     none
    [output] dir, namespace                         "generated", "RC::LuaBindings"
    [patches.dynamic_array], [patches.heap_objects] off; a patch is on when its table is there
-/

namespace LuaGlue

/-- Where the output goes, and the namespace around it. -/
structure OutputSettings where
  /-- The directory that the headers are written under. -/
  directory : String := "generated"
  cxxNamespace : String := "RC::LuaBindings"
  deriving DecidableEq, Repr

/-- The settings of a run. -/
structure Settings where
  output : OutputSettings := {}
  /-- The declaration files, one for each header. -/
  declarations : List String := []
  /-- Where declaration files are looked for, besides the directory of the settings. -/
  includePaths : List String := []
  /-- Headers that every state file includes. -/
  extraIncludes : List String := []
  patches : Patches := {}
  deriving DecidableEq, Repr

/-- Why there are no settings. -/
inductive SettingsError where
  | unreadable (path : String)
  | malformed (path : String)
  deriving DecidableEq, Repr

/-- The words that report the error. -/
def SettingsError.message : SettingsError → String
  | .unreadable path => s!"failed to read config file {path}"
  | .malformed path => s!"failed to parse config file {path}"

open Toml

/-- A container template that is shown to Lua. -/
def DynamicArray.decode : Decoder DynamicArray := fun value => do
  let fields ← Fields.of? ["template", "wrapper", "raw", "include"] value
  return { template := ← fields.required "template" Decoder.text
           wrapper := ← fields.required "wrapper" Decoder.text
           raw := ← fields.required "raw" Decoder.text
           header := ← fields.withDefault "include" (fun v => (Decoder.text v).map some) none }

/-- The settings of heap objects. -/
def HeapObjects.decode : Decoder HeapObjects := fun value => do
  let fields ← Fields.of? ["strip_prefixes", "name_field"] value
  let defaults : HeapObjects := {}
  return { stripped := ← fields.withDefault "strip_prefixes" (Decoder.list Decoder.text) defaults.stripped
           nameField := ← fields.withDefault "name_field" Decoder.text defaults.nameField }

/-- The extensions that are switched on. -/
def Patches.decode : Decoder Patches := fun value => do
  let fields ← Fields.of? ["dynamic_array", "heap_objects"] value
  return { array := ← fields.optional "dynamic_array" DynamicArray.decode
           heap := ← fields.optional "heap_objects" HeapObjects.decode }

/-- The extensions that a document switches on. -/
def Patches.parse? (text : String) : Option Patches := do
  Patches.decode (.table (← Toml.parse? text))

/-- The output settings. -/
def OutputSettings.decode : Decoder OutputSettings := fun value => do
  let fields ← Fields.of? ["dir", "namespace"] value
  let defaults : OutputSettings := {}
  return { directory := ← fields.withDefault "dir" Decoder.text defaults.directory
           cxxNamespace := ← fields.withDefault "namespace" Decoder.text defaults.cxxNamespace }

namespace Settings

/-- All settings. -/
def decode : Decoder Settings := fun value => do
  let fields ← Fields.of? ["output", "declarations", "include_paths", "extra_includes", "patches"] value
  let texts (name : String) := fields.withDefault name (Decoder.list Decoder.text) []
  return { output := ← fields.withDefault "output" OutputSettings.decode {}
           declarations := ← texts "declarations"
           includePaths := ← texts "include_paths"
           extraIncludes := ← texts "extra_includes"
           patches := ← fields.withDefault "patches" Patches.decode {} }

/-- The settings of a document, unless it is malformed or a setting has a wrong type. -/
def parse? (text : String) : Option Settings := do
  decode (.table (← Toml.parse? text))

end Settings

end LuaGlue
