import LuaGlue.Binding.Inheritance
import LuaGlue.Call.Proto
import LuaGlue.Glue.ClassSetup
import LuaGlue.Support.NumericMetatables
import LuaGlue.Support.Preamble
import LuaGlue.Support.Utility

/-!
The header that binds everything of one Lua state.

`StateFile.of` gathers what the header defines; this is where a type that cannot be rendered stops the
run. `StateFile.render` writes it:

    includes · support code · convertible sets · function pointers
      · per class: constructor dispatch, self helper, wrappers
      · per class: member map, metamethod map, setup function
      · heap functions · free functions · enums · setup of the state

Every symbol is defined before its first use, and the support code stands inside the namespace of the
state, so that any number of these headers may be included together.
-/

namespace LuaGlue

/-- What generated code defines for one class. -/
structure ClassGlue where
  bound : BoundClass
  dispatch : Option ConstructorDispatch
  wrappers : List WrapperFunction

/-- The glue of a class. -/
def ClassGlue.of (registry : Registry) (c : BoundClass) : Except Abort ClassGlue := do
  let dispatch ← c.constructorDispatch registry
  return ⟨c, dispatch, ← Members.wrappers registry c⟩

/-- The constructor dispatch, the self helper and the wrappers. -/
def ClassGlue.renderFunctions (g : ClassGlue) : String :=
  (g.dispatch.map fun d => g.bound.renderDispatch d ++ "\n\n").getD ""
    ++ g.bound.renderSelfHelper ++ "\n\n"
    ++ String.join (g.wrappers.map (·.render)) ++ "\n\n"

/-- The member map, the metamethod map and the setup function. -/
def ClassGlue.renderSetup (registry : Registry) (g : ClassGlue) : String :=
  Members.renderMap registry g.bound ++ "\n"
    ++ Members.renderMetamethodMap registry g.bound ++ "\n"
    ++ ClassSetup.render registry g.bound ++ "\n\n"

/-- The header of one Lua state. -/
structure StateFile where
  cxxNamespace : String
  state : String
  headers : NameSet
  protos : List ProtoWrapper
  classes : List ClassGlue
  /-- The free functions that are registered, by any of their Lua names. -/
  functions : List BoundFunction
  /-- The wrappers of those that have no native one; each stands once, whatever its aliases. -/
  wrappers : List WrapperFunction
  enums : List BoundEnum

namespace StateFile

/-! ### Contents -/

/-- The headers that one class needs. -/
def headersOfClass (c : BoundClass) : List String :=
  c.source :: ((c.functions.values ++ c.statics.values).filter fun f => !f.sharesHeader).map (·.source)

/-- All headers that are included: those of the classes and functions, and those of every state
file. -/
def headersOf (registry : Registry) (classes : List BoundClass) (functions : List BoundFunction) :
    NameSet :=
  let named := classes.flatMap headersOfClass ++ functions.map (·.source) ++ registry.headers.toList
  NameSet.ofNames (named.filter fun header => !header.isEmpty)

/-- Has the function a generated wrapper of its own? -/
def ownsWrapper (f : BoundFunction) : Bool :=
  !f.isRedirector && !f.isAlias && f.wrapperName.isNone

/-- The header of a state. -/
def of (registry : Registry) (cxxNamespace state : String) : Except Abort StateFile := do
  let classes := registry.classesForState state
  let functions := registry.functions.values.filter fun f => f.state == some state
  let protos ← registry.signatures.values.mapM fun s => ProtoWrapper.of s registry
  let glue ← classes.mapM (ClassGlue.of registry)
  let wrappers ← (functions.filter ownsWrapper).mapM fun f =>
    WrapperFunction.of f.freeWrapperName f registry
  return { cxxNamespace, state, headers := headersOf registry classes functions, protos,
           classes := glue, functions, wrappers,
           enums := registry.enums.filter fun e => e.state == state }

/-- Where the header of a state is written, below the output directory. -/
def path (state : String) : String := s!"include/LuaBindings/States/{state}/Main.hpp"

/-- The name of the function that sets a state up. -/
def setupName (state : String) : String := s!"lua_setup_state_{state}"

/-! ### Text -/

/-- The macro that guards the header. -/
def guard (f : StateFile) : String := s!"LUAWRAPPERGENERATOR_{f.state}_MAIN_HPP"

/-- The guard and the includes. -/
def renderHead (f : StateFile) : String :=
  Text.lines 0
    ([s!"#ifndef {f.guard}", s!"#define {f.guard}", "",
      "#include <string>", "#include <format>", "#include <unordered_map>",
      "#include <unordered_set>", "",
      "#include <lua.hpp>"]
      ++ f.headers.toList.map (fun header => s!"#include \"{header}\"")
      ++ ["", s!"namespace {f.cxxNamespace}::{f.state}", "\x7b"])

/-- The set of the metatables that are convertible to a class. -/
def renderConvertibleSet (registry : Registry) (c : BoundClass) : String :=
  Text.line 0 s!"inline std::unordered_set<std::string> {c.convertibleSet} \x7b"
    ++ Text.lines 8 ((registry.convertibleTo c.id).toList.map fun tag => s!"\x7b\"{tag}Metatable\"\x7d,")
    ++ "\x7d;"

/-- The sets of all classes. -/
def renderConvertibleSets (registry : Registry) : String :=
  Text.separated "\n\n" (registry.classes.map (renderConvertibleSet registry))

/-- A block that publishes one value in Lua. -/
def renderPublished (scope name : String) (push : List TableStmt) : String :=
  Text.line 4 "\x7b"
    ++ TableStmt.renderAll 8 (ScopeWalk.publish (Scope.parts scope) name push ScopeWalk.closeGlobal)
    ++ Text.line 4 "\x7d" ++ "\n"

/-- The definition of a function that publishes values in Lua. -/
def renderPublisher (name : String) (blocks : List String) : String :=
  Text.lines 0 [s!"inline auto {name}(lua_State* lua_state) -> void", "\x7b"]
    ++ String.join blocks ++ Text.line 0 "\x7d"

/-- The name of the function that publishes the free functions of a state. -/
def functionSetupName (state : String) : String := s!"lua_setup_global_free_functions_{state}"

/-- The name of the function that publishes the enums of a state. -/
def enumSetupName (state : String) : String := s!"lua_setup_enums_{state}"

/-- A free function as it is published. -/
def renderFunctionEntry (f : BoundFunction) : String :=
  renderPublished f.luaScope f.luaName [.run (.pushFunction f.freeWrapperName)]

/-- The statements that push the table of an enum: its values by key. -/
def enumTable (e : BoundEnum) : List TableStmt :=
  .run .newTable ::
    e.values.flatMap fun (key, value) =>
      [.run (.pushLiteral key), .run (.pushInteger value), .run .setField]

/-- An enum as it is published. -/
def renderEnumEntry (e : BoundEnum) : String := renderPublished e.scope e.name (enumTable e)

/-- The function that sets up the state. -/
def renderSetup (registry : Registry) (f : StateFile) : String :=
  Text.lines 0 [s!"inline auto {setupName f.state}(lua_State* lua_state) -> void", "\x7b"]
    ++ Text.lines 4
      ("setup_FunctionProto(lua_state);" ::
        f.classes.map fun g => s!"{ClassSetup.functionName g.bound}(lua_state);")
    ++ "\n"
    ++ Text.lines 4
      [s!"{functionSetupName f.state}(lua_state);", s!"{enumSetupName f.state}(lua_state);"]
    ++ (if registry.patches.heap.isSome then Support.numericMetatables else "")
    ++ Text.line 0 "\x7d" ++ "\n"

/-- The whole header. -/
def render (registry : Registry) (f : StateFile) : String :=
  f.renderHead
    ++ Support.preamble ++ "\n\n"
    ++ Support.utility ++ "\n\n"
    ++ renderConvertibleSets registry ++ "\n\n"
    ++ renderProtoMetatable ++ String.join (f.protos.map (·.render)) ++ "\n\n"
    ++ String.join (f.classes.map (·.renderFunctions))
    ++ String.join (f.classes.map (·.renderSetup registry))
    ++ renderNumericHeapFunctions
    ++ String.join (f.wrappers.map (·.renderDefinition)) ++ "\n"
    ++ renderPublisher (functionSetupName f.state) (f.functions.map renderFunctionEntry) ++ "\n"
    ++ renderPublisher (enumSetupName f.state) (f.enums.map renderEnumEntry) ++ "\n"
    ++ renderSetup registry f
    ++ (match registry.patches.heap with
        | some heap => heap.renderTables (f.classes.map (·.bound))
        | none => "")
    ++ Text.lines 0
      [s!"\x7d // {f.cxxNamespace}::{f.state}", "", s!"#endif //{f.guard}"]

end StateFile

end LuaGlue
