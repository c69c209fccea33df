import LuaGlue.Glue.StateFile

/-!
All files of a run: one header for each Lua state, and last the header that sets up a state by its
name.
-/

namespace LuaGlue

/-- A file that a run produces. -/
structure GeneratedFile where
  /-- Where it is written, below the output directory. -/
  path : String
  contents : String
  deriving DecidableEq, Repr

/-- The header that sets up a state by its name. -/
structure SetupFile where
  cxxNamespace : String
  states : List String
  deriving DecidableEq, Repr

namespace SetupFile

/-- Where the header is written, below the output directory. -/
def path : String := "include/LuaBindings/LuaSetup.hpp"

/-- The macro that guards the header. -/
def guard : String := "LUAWRAPPERGENERATOR_LUASETUP_HPP"

/-- The entry of a state in the table of setup functions. -/
def renderEntry (state : String) : String :=
  s!"\x7b\"{state}\", &{state}::{StateFile.setupName state}\x7d,"

/-- The whole header. -/
def render (f : SetupFile) : String :=
  Text.lines 0
    ([s!"#ifndef {guard}", s!"#define {guard}", "",
      "#include <atomic>", "#include <format>", "#include <functional>", "#include <string_view>",
      "#include <unordered_map>", ""]
      ++ f.states.map (fun state => s!"#include <LuaBindings/States/{state}/Main.hpp>")
      ++ ["", s!"namespace {f.cxxNamespace}", "\x7b",
          "static std::unordered_map<std::string, void (*)(lua_State*)> s_state_setup_functions\x7b"])
    ++ Text.lines 4 (f.states.map renderEntry)
    ++ Text.lines 0
      ["\x7d;", "",
       "inline auto lua_setup_state(lua_State* lua_state, std::string_view state_name) -> void",
       "\x7b",
       "    if (auto it = s_state_setup_functions.find(std::string\x7bstate_name\x7d); it != s_state_setup_functions.end())",
       "    \x7b",
       "        it->second(lua_state);",
       "    \x7d",
       "    else",
       "    \x7b",
       s!"        luaL_error(lua_state, std::format(\"{Messages.unknownState}\", state_name).c_str());",
       "    \x7d",
       "\x7d",
       s!"\x7d // {f.cxxNamespace}", "",
       s!"#endif //{guard}"]

end SetupFile

namespace Registry

/-- The headers of these states, each with its text; and the abort that stopped before the others. -/
def renderStates (r : Registry) (cxxNamespace : String) :
    List String → List (StateFile × String) × Option Abort
  | [] => ([], none)
  | state :: rest =>
    match StateFile.of r cxxNamespace state with
    | .error abort => ([], some abort)
    | .ok file =>
      let (files, abort?) := r.renderStates cxxNamespace rest
      ((file, file.render r) :: files, abort?)

/-- What the registry renders to. -/
structure Rendering where
  /-- The state files that were rendered, also when a later one is not. -/
  states : List StateFile
  /-- All files, or the abort. -/
  files : Except Abort (List GeneratedFile)

/-- Renders all files. -/
def renderAll (r : Registry) (cxxNamespace : String) : Rendering :=
  let states := r.states.toList
  let (rendered, abort?) := r.renderStates cxxNamespace states
  let stateFiles := rendered.map fun (file, contents) => GeneratedFile.mk (StateFile.path file.state) contents
  { states := rendered.map Prod.fst
    files := match abort? with
      | some abort => .error abort
      | none => .ok (stateFiles ++ [⟨SetupFile.path, SetupFile.render ⟨cxxNamespace, states⟩⟩]) }

end Registry

end LuaGlue
