import LuaGlue.Proofs.Emission.Symbols

/-!
A state file as a sequence of parts.

A part is a piece of the text with the generated symbols that it defines and those that it mentions. The
parts one after another are the file (`textAll_parts`), and the symbols of a part stand in its text.

    shared parts     support code · convertible sets · function pointers
    class parts      per class: constructor dispatch, self helper, wrappers
                     per class: member map, metamethod map, setup function
    the rest         heap functions · free functions · enums · setup of the state

A native wrapper that is given for a function is none of the symbols: it is declared by a header.
-/

namespace LuaGlue

/-- A part of a state file. -/
structure Part where
  text : String
  /-- The symbols that are defined here. -/
  defines : List String := []
  /-- The symbols of other parts that are named here. -/
  mentions : List String := []

namespace Part

/-- The text of parts one after another. -/
def textAll (parts : List Part) : String := String.join (parts.map Part.text)

/-- Do all symbols of the part stand in its text? -/
structure IsGenuine (p : Part) : Prop where
  defines : ∀ symbol ∈ p.defines, Occurs symbol p.text
  mentions : ∀ symbol ∈ p.mentions, Occurs symbol p.text

theorem isGenuine_of_nil (text : String) : ({ text } : Part).IsGenuine := ⟨nofun, nofun⟩

theorem textAll_append (ps qs : List Part) : textAll (ps ++ qs) = textAll ps ++ textAll qs := by
  rw [textAll, List.map_append, String.join_append, textAll, textAll]

theorem textAll_cons (p : Part) (ps : List Part) : textAll (p :: ps) = p.text ++ textAll ps := by
  rw [textAll, List.map_cons, String.join_cons, textAll]

@[simp] theorem textAll_nil : textAll [] = "" := rfl

theorem textAll_map {α : Type} (part : α → Part) (render : α → String) (h : ∀ a, (part a).text = render a)
    (l : List α) : textAll (l.map part) = String.join (l.map render) := by
  rw [textAll, List.map_map]
  exact congrArg String.join (List.map_congr_left fun a _ => h a)

theorem textAll_flatMap {α : Type} (parts : α → List Part) (render : α → String)
    (h : ∀ a, textAll (parts a) = render a) (l : List α) : textAll (l.flatMap parts) = String.join (l.map render) := by
  induction l with
  | nil => rfl
  | cons a l ih => rw [List.flatMap_cons, textAll_append, h, ih, List.map_cons, String.join_cons]

end Part

/-! ### Functions -/

/-- The wrapper of a function type. -/
def ProtoWrapper.part (w : ProtoWrapper) : Part where
  text := w.render
  defines := [w.name]
  mentions := w.arguments.symbols ++ (w.push.map PushCode.symbols).getD []

theorem occurs_renderReturn {push : Option PushCode} {symbol : String}
    (h : symbol ∈ (push.map PushCode.symbols).getD []) : Occurs symbol (renderReturn push) := by
  cases push with
  | none => cases h
  | some code => exact ((code.occurs_symbols h).left _).left _

theorem ProtoWrapper.isGenuine_part (w : ProtoWrapper) : w.part.IsGenuine := by
  constructor
  · intro symbol h
    obtain rfl := List.mem_singleton.1 h
    have hhead : Occurs w.name s!"inline auto {w.name}(lua_State* lua_state) -> int\n\x7b\n" :=
      .between "inline auto " w.name "(lua_State* lua_state) -> int\n\x7b\n"
    change Occurs w.name w.render
    unfold render
    iterate 12 refine Occurs.left ?_ _
    exact hhead
  · intro symbol h
    change Occurs symbol w.render
    unfold render
    rcases List.mem_append.1 h with harguments | hpush
    · exact (((((((w.arguments.occurs_symbols harguments).right _).left _).left _).left _).left _).left _).left _
    · exact ((((occurs_renderReturn hpush).right _).left _).left _).left _

/-- A wrapper of a member. -/
def WrapperFunction.part (w : WrapperFunction) : Part where
  text := w.render
  defines := [w.name]
  mentions := w.body.symbols

theorem WrapperFunction.isGenuine_part (w : WrapperFunction) : w.part.IsGenuine := by
  constructor
  · intro symbol h
    obtain rfl := List.mem_singleton.1 h
    have hhead : Occurs w.name s!"inline auto {w.name}(lua_State* lua_state) -> int\n\x7b\n" :=
      .between "inline auto " w.name "(lua_State* lua_state) -> int\n\x7b\n"
    change Occurs w.name w.render
    unfold render renderDefinition
    exact (((hhead.left _).left _).left _)
  · intro symbol h
    change Occurs symbol w.render
    unfold render renderDefinition
    exact (((w.body.occurs_symbols h).right _).left _).left _

namespace BoundClass

/-- The function that makes a class table callable. -/
def dispatchPart (c : BoundClass) (d : ConstructorDispatch) : Part where
  text := c.renderDispatch d ++ "\n\n"
  defines := [c.dispatchName]
  mentions := d.body.symbols

theorem isGenuine_dispatchPart (c : BoundClass) (d : ConstructorDispatch) : (c.dispatchPart d).IsGenuine := by
  constructor
  · intro symbol h
    obtain rfl := List.mem_singleton.1 h
    have hhead : Occurs c.dispatchName (Text.line 0 s!"inline auto {c.dispatchName}(lua_State* lua_state) -> void") :=
      .line 0 (.between "inline auto " c.dispatchName "(lua_State* lua_state) -> void")
    change Occurs c.dispatchName (c.renderDispatch d ++ "\n\n")
    unfold renderDispatch
    exact (((hhead.left _).left _).left _).left _
  · intro symbol h
    have hbody : Occurs symbol ((TableStmt.pushLambda (c.renderCallBody d)).render 4) :=
      (((d.body.occurs_symbols h).right _).right _).left _
    have hstmts : Occurs symbol (TableStmt.renderAll 4 (ConstructorDispatch.makeCallable (c.renderCallBody d))) :=
      .join hbody (List.mem_map_of_mem (by simp [ConstructorDispatch.makeCallable]))
    change Occurs symbol (c.renderDispatch d ++ "\n\n")
    unfold renderDispatch
    exact ((hstmts.right _).left _).left _

/-- The helper that finds an object of the class. -/
def helperPart (c : BoundClass) : Part where
  text := c.renderSelfHelper ++ "\n\n"
  defines := [c.selfHelper]
  mentions := [c.convertibleSet]

theorem isGenuine_helperPart (c : BoundClass) : c.helperPart.IsGenuine := by
  constructor
  · intro symbol h
    obtain rfl := List.mem_singleton.1 h
    change Occurs c.selfHelper (c.renderSelfHelper ++ "\n\n")
    unfold renderSelfHelper
    refine (Occurs.openLines 0 ?_ (List.mem_of_getElem? (i := 1) rfl)).left _
    exact .between "inline auto " c.selfHelper "(lua_State* lua_state) -> std::pair<bool, ReturnType>"
  · intro symbol h
    obtain rfl := List.mem_singleton.1 h
    change Occurs c.convertibleSet (c.renderSelfHelper ++ "\n\n")
    unfold renderSelfHelper
    refine (Occurs.openLines 0 ?_ (List.mem_of_getElem? (i := 12) rfl)).left _
    exact .between "    luaL_argcheck(lua_state, " c.convertibleSet
      ".contains(metatable_name), 1, bad_self_error_message.c_str());"

end BoundClass

/-- The constructor dispatch, the self helper and the wrappers of a class. -/
def ClassGlue.functionParts (g : ClassGlue) : List Part :=
  (g.dispatch.map g.bound.dispatchPart).toList ++ g.bound.helperPart :: g.wrappers.map (·.part) ++ [{ text := "\n\n" }]

theorem ClassGlue.textAll_functionParts (g : ClassGlue) : Part.textAll g.functionParts = g.renderFunctions := by
  have hdispatch : Part.textAll (g.dispatch.map g.bound.dispatchPart).toList
      = (g.dispatch.map fun d => g.bound.renderDispatch d ++ "\n\n").getD "" := by
    cases g.dispatch with
    | none => rfl
    | some d => exact (Part.textAll_cons _ _).trans String.append_empty
  rw [functionParts, Part.textAll_append, Part.textAll_append, Part.textAll_cons, hdispatch,
    Part.textAll_map WrapperFunction.part WrapperFunction.render fun _ => rfl, Part.textAll_cons, Part.textAll_nil,
    String.append_empty]
  rw [renderFunctions, BoundClass.helperPart]
  simp only [String.append_assoc]

theorem ClassGlue.isGenuine_functionParts (g : ClassGlue) : ∀ p ∈ g.functionParts, p.IsGenuine := by
  intro p hp
  rcases List.mem_append.1 hp with hp | hgap
  · rcases List.mem_append.1 hp with hdispatch | hp
    · obtain ⟨d, -, rfl⟩ := Option.map_eq_some_iff.1 (Option.mem_toList.1 hdispatch)
      exact g.bound.isGenuine_dispatchPart d
    · rcases List.mem_cons.1 hp with rfl | hwrapper
      · exact g.bound.isGenuine_helperPart
      · obtain ⟨w, -, rfl⟩ := List.mem_map.1 hwrapper
        exact w.isGenuine_part
  · rw [List.mem_singleton.1 hgap]
    exact Part.isGenuine_of_nil _

/-! ### Maps -/

/-- A name that ends in a fixed word stands where both stand. -/
theorem Occurs.suffixed (before name word after : String) : Occurs (name ++ word) (before ++ name ++ (word ++ after)) :=
  ⟨before, after, by simp only [String.append_assoc]⟩

namespace Members

variable (registry : Registry) (c : BoundClass)

/-- The name of the member map. -/
def mapName : String := s!"{c.tag}_member_functions"

/-- The name of the metamethod map. -/
def metamethodMapName : String := s!"{c.tag}_metamethods"

/-- The functions that the member map lists. -/
def listed : List BoundFunction :=
  firstByName [] ((inLineage registry c).filter fun f => !isOperatorName f.name)

/-- Has the member a generated wrapper? -/
def isGenerated (f : BoundFunction) : Bool := !(f.isRedirector && f.wrapperName.isSome)

theorem target_of_isGenerated {f : BoundFunction} (h : isGenerated f = true) :
    target registry c f = wrapperName registry c f := by
  unfold target
  split
  · next hwrapper hredirector => simp [isGenerated, hwrapper, hredirector] at h
  · rfl

/-- The symbols of the members that every class has. -/
def utilitySymbols : List String :=
  (if isTaken registry c "Set" || isTaken registry c "set" then [] else [c.convertibleSet, c.selfHelper])
    ++ (["IsValid", "GetAddress"].filter fun name => !isTaken registry c name).map fun _ => c.selfHelper

theorem occurs_renderEntry {symbol : String} {entry : MapEntry} (h : Occurs symbol entry.2) :
    Occurs symbol (renderEntry entry) := ((h.right _).left _).line 4

theorem occurs_utilitySymbols {symbol : String} (h : symbol ∈ utilitySymbols registry c) :
    ∃ entry ∈ utilityEntries registry c, Occurs symbol entry.2 := by
  have hhelper : Occurs c.selfHelper s!"{c.selfHelper}<{c.qualified}**, true>" :=
    (((Occurs.refl c.selfHelper).left _).left _).left _
  unfold utilitySymbols at h
  unfold utilityEntries
  rcases List.mem_append.1 h with hassign | hcheck
  · split at hassign
    · cases hassign
    · next huntaken =>
      simp only [huntaken]
      refine ⟨_, List.mem_append_left _ (List.mem_append_left _ List.mem_cons_self), ?_⟩
      rcases List.mem_cons.1 hassign with rfl | hself
      · exact ((((((Occurs.refl c.convertibleSet).right _).left _).left _).left _).left _).left _
      · rw [List.mem_singleton.1 hself]
        exact (hhelper.right _).left _
  · obtain ⟨name, hname, rfl⟩ := List.mem_map.1 hcheck
    exact ⟨_, List.mem_append_right _ (List.mem_map.2 ⟨name, hname, rfl⟩), (hhelper.right _).left _⟩

/-- The member map. -/
def mapPart : Part where
  text := renderMap registry c ++ "\n"
  defines := [mapName c]
  mentions := ((listed registry c).filter isGenerated).map (wrapperName registry c) ++ utilitySymbols registry c

theorem isGenuine_mapPart : (mapPart registry c).IsGenuine := by
  constructor
  · intro symbol h
    obtain rfl := List.mem_singleton.1 h
    have hword : "_member_functions = \x7b" = "_member_functions" ++ " = \x7b" := rfl
    change Occurs (mapName c) (renderMap registry c ++ "\n")
    unfold renderMap
    iterate 6 refine Occurs.left ?_ _
    refine Occurs.line 0 ?_
    rw [hword]
    exact .suffixed _ c.tag "_member_functions" " = \x7b"
  · intro symbol h
    change Occurs symbol (renderMap registry c ++ "\n")
    unfold renderMap
    rcases List.mem_append.1 h with hlisted | hutility
    · obtain ⟨f, hf, rfl⟩ := List.mem_map.1 hlisted
      obtain ⟨hf, hgenerated⟩ := List.mem_filter.1 hf
      have hentry : (f.name, target registry c f) ∈ entries registry c := List.mem_map.2 ⟨f, hf, rfl⟩
      have htarget : Occurs (wrapperName registry c f) (target registry c f) := by
        rw [target_of_isGenerated registry c hgenerated]
        exact .refl _
      have hall := (occurs_renderEntry htarget).join (List.mem_map.2 ⟨_, hentry, rfl⟩)
      exact (((((hall.right _).left _).left _).left _).left _).left _
    · obtain ⟨entry, hentry, hoccurs⟩ := occurs_utilitySymbols registry c hutility
      have hall := (occurs_renderEntry hoccurs).join (List.mem_map.2 ⟨entry, hentry, rfl⟩)
      exact ((hall.right _).left _).left _

/-- The metamethod map: it leads to native wrappers only. -/
def metamethodPart : Part where
  text := renderMetamethodMap registry c ++ "\n"
  defines := [metamethodMapName c]

theorem isGenuine_metamethodPart : (metamethodPart registry c).IsGenuine := by
  refine ⟨fun symbol h => ?_, nofun⟩
  obtain rfl := List.mem_singleton.1 h
  have hword : "_metamethods = \x7b" = "_metamethods" ++ " = \x7b" := rfl
  change Occurs (metamethodMapName c) (renderMetamethodMap registry c ++ "\n")
  unfold renderMetamethodMap
  iterate 3 refine Occurs.left ?_ _
  refine Occurs.line 0 ?_
  rw [hword]
  exact .suffixed _ c.tag "_metamethods" " = \x7b"

end Members

/-! ### Setup functions -/

theorem mem_publish {stmt : TableStmt} {push : List TableStmt} (h : stmt ∈ push) (scope : List String)
    (name : String) (close : String → TableStmt) : stmt ∈ ScopeWalk.publish scope name push close := by
  cases scope with
  | nil => exact List.mem_append_left _ h
  | cons outermost inner =>
    refine List.mem_append_left _ (List.mem_append_left _ (List.mem_append_right _ ?_))
    exact List.mem_append_left _ (List.mem_cons_of_mem _ h)

namespace ClassSetup

variable (registry : Registry) (c : BoundClass)

/-- The wrappers of the static functions, unless a native one stands for them. -/
def staticSymbols : List String :=
  (c.statics.values.filter Members.isGenerated).map (Members.wrapperName registry c)

/-- The function that sets a class up. -/
def part : Part where
  text := render registry c ++ "\n\n"
  defines := [functionName c]
  mentions := [Members.mapName c, Members.metamethodMapName c, c.selfHelper]
    ++ staticSymbols registry c ++ if c.constructor?.isSome then [c.dispatchName] else []

theorem occurs_renderIndex {symbol : String}
    (h : symbol ∈ [Members.mapName c, Members.metamethodMapName c, c.selfHelper]) :
    Occurs symbol (renderIndex c) := by
  unfold renderIndex
  simp only [List.mem_cons, List.not_mem_nil, or_false] at h
  rcases h with rfl | rfl | rfl
  · have hword : "_member_functions.find(index.data()); it != "
        = "_member_functions" ++ ".find(index.data()); it != " := rfl
    iterate 5 refine Occurs.left ?_ _
    refine Occurs.right (Occurs.lines 8 ?_ (List.mem_of_getElem? (i := 1) rfl)) _
    iterate 2 refine Occurs.left ?_ _
    rw [hword]
    exact .suffixed "if (auto it = " c.tag "_member_functions" ".find(index.data()); it != "
  · have hword : "_metamethods.find(\"__index\");" = "_metamethods" ++ ".find(\"__index\");" := rfl
    iterate 2 refine Occurs.left ?_ _
    refine Occurs.right (Occurs.lines 8 ?_ (List.mem_of_getElem? (i := 0) rfl)) _
    rw [hword]
    exact .suffixed "auto index_it = " c.tag "_metamethods" ".find(\"__index\");"
  · iterate 3 refine Occurs.left ?_ _
    refine Occurs.right ?_ _
    unfold BoundClass.renderSelfKept
    refine Occurs.lines 8 ?_ (List.mem_of_getElem? (i := 0) rfl)
    exact (((Occurs.refl c.selfHelper).right "auto [_, self] = ").left _).left _ |>.left _

theorem occurs_tableContents {call : ApiCall} (h : .run call ∈ tableContents registry c) {symbol : String}
    (hsymbol : Occurs symbol call.render) : Occurs symbol (TableStmt.renderAll 4 (classTable registry c)) := by
  have hstmt : TableStmt.run call ∈ classTable registry c := by
    refine List.mem_append_left _ (List.mem_cons_of_mem _ (mem_publish ?_ _ _ _))
    exact List.mem_cons_of_mem _ (List.mem_cons_of_mem _ h)
  have hrender : Occurs symbol ((TableStmt.run call).render 4) := (hsymbol.left ";").line 4
  exact hrender.join (List.mem_map.2 ⟨_, hstmt, rfl⟩)

theorem isGenuine_part : (part registry c).IsGenuine := by
  constructor
  · intro symbol h
    obtain rfl := List.mem_singleton.1 h
    change Occurs (functionName c) (render registry c ++ "\n\n")
    unfold render
    iterate 4 refine Occurs.left ?_ _
    refine Occurs.lines 0 ?_ (List.mem_of_getElem? (i := 0) rfl)
    exact .between "inline auto " (functionName c) "(lua_State* lua_state) -> void"
  · intro symbol h
    change Occurs symbol (render registry c ++ "\n\n")
    unfold render
    rcases List.mem_append.1 h with h | hdispatch
    · rcases List.mem_append.1 h with hindex | hstatic
      · iterate 3 refine Occurs.left ?_ _
        refine Occurs.right ?_ _
        unfold renderMetatable
        iterate 3 refine Occurs.left ?_ _
        exact (occurs_renderIndex c hindex).right _
      · obtain ⟨f, hf, rfl⟩ := List.mem_map.1 hstatic
        obtain ⟨hf, hgenerated⟩ := List.mem_filter.1 hf
        have hcall : TableStmt.run (.pushFunction (Members.target registry c f)) ∈ tableContents registry c :=
          List.mem_append_left _ (List.mem_flatMap.2 ⟨f, hf, List.mem_of_getElem? (i := 1) rfl⟩)
        refine ((occurs_tableContents registry c hcall ?_).right _ |>.left _).left _
        rw [Members.target_of_isGenerated registry c hgenerated]
        exact .between "lua_pushcfunction(lua_state, &" _ ")"
    · split at hdispatch
      · next hsome =>
        rw [List.mem_singleton.1 hdispatch]
        have hcall : TableStmt.run (.helper c.dispatchName) ∈ tableContents registry c := by
          refine List.mem_append_right _ ?_
          rw [if_pos hsome]
          exact List.mem_of_getElem? (i := 1) rfl
        refine ((occurs_tableContents registry c hcall ?_).right _ |>.left _).left _
        exact (Occurs.refl c.dispatchName).left _
      · cases hdispatch

end ClassSetup

/-- The member map, the metamethod map and the setup function of a class. -/
def ClassGlue.setupParts (registry : Registry) (g : ClassGlue) : List Part :=
  [Members.mapPart registry g.bound, Members.metamethodPart registry g.bound, ClassSetup.part registry g.bound]

theorem ClassGlue.textAll_setupParts (registry : Registry) (g : ClassGlue) :
    Part.textAll (g.setupParts registry) = g.renderSetup registry := by
  unfold setupParts renderSetup
  rw [Part.textAll_cons, Part.textAll_cons, Part.textAll_cons, Part.textAll_nil, String.append_empty]
  unfold Members.mapPart Members.metamethodPart ClassSetup.part
  simp only [String.append_assoc]

theorem ClassGlue.isGenuine_setupParts (registry : Registry) (g : ClassGlue) :
    ∀ p ∈ g.setupParts registry, p.IsGenuine := by
  intro p hp
  simp only [setupParts, List.mem_cons, List.not_mem_nil, or_false] at hp
  rcases hp with rfl | rfl | rfl
  · exact Members.isGenuine_mapPart registry g.bound
  · exact Members.isGenuine_metamethodPart registry g.bound
  · exact ClassSetup.isGenuine_part registry g.bound

/-! ### The file -/

namespace StateFile

variable (registry : Registry) (f : StateFile)

/-- The convertible sets of all classes. -/
def setsPart : Part where
  text := renderConvertibleSets registry ++ "\n\n"
  defines := registry.classes.map BoundClass.convertibleSet

/-- What stands before the classes. -/
def sharedParts : List Part :=
  [{ text := f.renderHead ++ Support.preamble ++ "\n\n" ++ Support.utility ++ "\n\n" }, setsPart registry,
    { text := renderProtoMetatable }] ++ f.protos.map (·.part) ++ [{ text := "\n\n" }]

/-- What binds the classes. -/
def classParts : List Part :=
  f.classes.flatMap ClassGlue.functionParts ++ f.classes.flatMap (ClassGlue.setupParts registry)

/-- What stands behind the classes. -/
def restPart : Part where
  text := renderNumericHeapFunctions
    ++ String.join (f.wrappers.map (·.renderDefinition)) ++ "\n"
    ++ renderPublisher (functionSetupName f.state) (f.functions.map renderFunctionEntry) ++ "\n"
    ++ renderPublisher (enumSetupName f.state) (f.enums.map renderEnumEntry) ++ "\n"
    ++ renderSetup registry f
    ++ (match registry.patches.heap with
        | some heap => heap.renderTables (f.classes.map (·.bound))
        | none => "")
    ++ Text.lines 0
      [s!"\x7d // {f.cxxNamespace}::{f.state}", "", s!"#endif //{f.guard}"]

/-- The parts one after another are the file. -/
theorem textAll_parts :
    Part.textAll (f.sharedParts registry ++ f.classParts registry ++ [f.restPart registry]) = f.render registry := by
  unfold sharedParts classParts
  simp only [Part.textAll_append, Part.textAll_cons, Part.textAll_nil, String.append_empty]
  rw [Part.textAll_map ProtoWrapper.part ProtoWrapper.render fun _ => rfl,
    Part.textAll_flatMap ClassGlue.functionParts ClassGlue.renderFunctions ClassGlue.textAll_functionParts,
    Part.textAll_flatMap (ClassGlue.setupParts registry) (ClassGlue.renderSetup registry)
      (ClassGlue.textAll_setupParts registry)]
  unfold render setsPart restPart
  cases registry.patches.heap <;> simp only [String.append_assoc]

theorem isGenuine_setsPart : (setsPart registry).IsGenuine := by
  refine ⟨fun symbol h => ?_, nofun⟩
  obtain ⟨c, hc, rfl⟩ := List.mem_map.1 h
  have hset : Occurs c.convertibleSet (renderConvertibleSet registry c) := by
    unfold renderConvertibleSet
    exact ((Occurs.line 0 (.between "inline std::unordered_set<std::string> " c.convertibleSet " \x7b")).left _).left _
  exact (hset.separated "\n\n" (List.mem_map.2 ⟨c, hc, rfl⟩)).left _

/-- What is listed for a part stands in it. -/
theorem isGenuine_parts : ∀ p ∈ f.sharedParts registry ++ f.classParts registry, p.IsGenuine := by
  intro p hp
  rcases List.mem_append.1 hp with hshared | hclass
  · rcases List.mem_append.1 hshared with hp | hgap
    · rcases List.mem_append.1 hp with hfirst | hproto
      · simp only [List.mem_cons, List.not_mem_nil, or_false] at hfirst
        rcases hfirst with rfl | rfl | rfl
        · exact Part.isGenuine_of_nil _
        · exact isGenuine_setsPart registry
        · exact Part.isGenuine_of_nil _
      · obtain ⟨w, -, rfl⟩ := List.mem_map.1 hproto
        exact w.isGenuine_part
    · rw [List.mem_singleton.1 hgap]
      exact Part.isGenuine_of_nil _
  · rcases List.mem_append.1 hclass with hfunctions | hsetup
    · obtain ⟨g, -, hp⟩ := List.mem_flatMap.1 hfunctions
      exact g.isGenuine_functionParts p hp
    · obtain ⟨g, -, hp⟩ := List.mem_flatMap.1 hsetup
      exact g.isGenuine_setupParts registry p hp

end StateFile

end LuaGlue
