import LuaGlue.Glue.ClassSetup

/-!
The metatable of a class, and what its closures do.

The setup of a class stores fields into the metatable one after another. A field is a text or a closure, and a closure
is a sequence of steps, each of which ends the call or leaves it to the next one:

    __index        object? ──▶ text? ──▶ member map ──▶ object kept ──▶ metamethod map
    other names    object? ────────────────────────────▶ object kept ──▶ metamethod map

`renderMetatable_eq` says that the fields are what is written to the file, character by character.
-/

namespace LuaGlue

/-! ### Steps of a closure -/

/-- A step of a closure in the metatable. -/
inductive AccessStep where
  /-- Raises unless userdata is at this place of the stack; these places are cleared first. -/
  | requireObject (place : Int) (cleared : List Int) (message : String)
  /-- Raises unless the key is a text. -/
  | requireText
  /-- Answers with the wrapper that the member map has for the key. -/
  | fetchMember
  /-- Finds the object and keeps it, or raises. -/
  | keepSelf
  /-- Calls the wrapper that the metamethod map has for a name, or answers with nothing. -/
  | fetchMetamethod (variableName name : String)

/-- The step as text, for a class. -/
def AccessStep.text (c : BoundClass) : AccessStep → String
  | .requireObject place cleared message =>
    Text.lines 4
      ([s!"    if (!lua_isuserdata(lua_state, {place}))", "    \x7b"]
        ++ cleared.map (fun other => s!"            lua_remove(lua_state, {other});")
        ++ [s!"            luaL_error(lua_state, \"{message}\");", "    \x7d"])
      ++ "\n"
  | .requireText =>
    Text.line 8 s!"luaL_argcheck(lua_state, lua_isstring(lua_state, -1), 2, \"{Messages.indexNotString}\");" ++ "\n"
  | .fetchMember =>
    Text.lines 8
      ["auto index = std::string_view\x7blua_tostring(lua_state, -1)\x7d;",
       s!"if (auto it = {c.tag}_member_functions.find(index.data()); it != {c.tag}_member_functions.end())",
       "\x7b",
       "    lua_pop(lua_state, 1);",
       "    lua_pushcfunction(lua_state, it->second);",
       "    return 1;",
       "\x7d"]
      ++ "\n"
  | .keepSelf => c.renderSelfKept
  | .fetchMetamethod variableName name =>
    Text.lines 8
      [s!"auto {variableName} = {c.tag}_metamethods.find(\"{name}\");",
       s!"if ({variableName} == {c.tag}_metamethods.end()) \x7b return 0; \x7d",
       s!"return {variableName}->second(lua_state, self);"]

/-- What Lua calls a closure with, as far as its steps ask about it. -/
structure MemberAccess where
  /-- Is there userdata where the object should be? -/
  isObject : Bool
  /-- The key as the native side reads it, if it is a text. -/
  key : Option String
  /-- The error that finding the object ends in, if it does. -/
  refusal : Option String

/-- What a closure answers. -/
inductive AccessAnswer where
  | raised (message : String)
  /-- The wrapper of a member, to be called. -/
  | member (wrapper : String)
  /-- Whatever the wrapper of a metamethod answers when it is called with the object. -/
  | called (wrapper : String)
  | nothing
  deriving DecidableEq, Repr

/-- What a step answers with these maps, unless it leaves that to the next one. -/
def AccessStep.run (members metamethods : List MapEntry) (a : MemberAccess) : AccessStep → Option AccessAnswer
  | .requireObject _ _ message => if a.isObject then none else some (.raised message)
  | .requireText => if a.key.isSome then none else some (.raised Messages.indexNotString)
  | .fetchMember => (a.key.bind fun key => members.lookup key).map .member
  | .keepSelf => a.refusal.map .raised
  | .fetchMetamethod _ name => some (((metamethods.lookup name).map .called).getD .nothing)

/-! ### Fields of the metatable -/

/-- A value in the metatable. -/
inductive MetaValue where
  | text (contents : String)
  | closure (steps : List AccessStep)

/-- The statement that pushes the value, for a class. -/
def MetaValue.push (c : BoundClass) : MetaValue → String
  | .text contents => Text.line 4 s!"lua_pushliteral(lua_state, \"{contents}\");"
  | .closure steps =>
    Text.line 4 "lua_pushcclosure(lua_state, [](lua_State* lua_state) -> int \x7b"
      ++ String.join (steps.map (AccessStep.text c)) ++ Text.line 4 "\x7d, 0);"

/-- A field: its name and its value. -/
abbrev MetaField := String × MetaValue

/-- The statements that store the field, for a class. -/
def MetaField.text (c : BoundClass) (field : MetaField) : String :=
  Text.line 4 s!"lua_pushliteral(lua_state, \"{field.1}\");" ++ field.2.push c
    ++ Text.line 4 "lua_rawset(lua_state, -3);" ++ "\n"

namespace ClassSetup

variable (registry : Registry) (c : BoundClass)

/-- The steps of the closure for member access. -/
def indexSteps : List AccessStep :=
  [.requireObject (-2) [-1, -2] (Messages.memberWithoutSelf c.name), .requireText, .fetchMember, .keepSelf,
   .fetchMetamethod "index_it" "__index"]

/-- The steps of the closure for one metamethod. -/
def metamethodSteps (name : String) : List AccessStep :=
  [.requireObject 1 [1] (Messages.metamethodWithoutSelf name c.name), .keepSelf, .fetchMetamethod "it" name]

/-- The names that the metatable gives the class. -/
def nameFields : List MetaField :=
  ("__cxx_name", .text c.qualified)
    :: (registry.patches.heap.map fun heap => (heap.nameField, .text (heap.shortName c.name))).toList

/-- The closures in the metatable. -/
def closureFields : List MetaField :=
  ("__index", .closure (indexSteps c))
    :: (closures registry c).map fun name => (name, .closure (metamethodSteps c name))

/-- The fields of the metatable, in the order in which they are stored. -/
def metaFields : List MetaField := nameFields registry c ++ closureFields registry c

/-- The value of a field of the metatable in the end; of those stored under one name the last one counts. -/
def metaField? (name : String) : Option MetaValue := (metaFields registry c).reverse.lookup name

/-- What a closure of these steps answers, with the maps of the class. -/
def answer (steps : List AccessStep) (a : MemberAccess) : Option AccessAnswer :=
  steps.findSome? <| AccessStep.run (Members.entries registry c ++ Members.utilityEntries registry c)
    (Members.metamethodEntries registry c) a

/-! ### Their text -/

/-- The statements that begin the metatable. -/
def openMetatable : String :=
  Text.lines 4
    ["// Metatable For Userdata -> START",
     s!"luaL_newmetatable(lua_state, \"{c.metatable}\");"]
    ++ "\n"

/-- The statements that leave the metatable. -/
def closeMetatable : String :=
  Text.lines 4
    ["// Remove table from the stack now that we're done with it.",
     "lua_remove(lua_state, -1);",
     "// Metatable For Userdata -> END"]
    ++ "\n"

theorem text_nameFields : String.join ((nameFields registry c).map (MetaField.text c))
    = Text.lines 4
        ["lua_pushliteral(lua_state, \"__cxx_name\");",
         s!"lua_pushliteral(lua_state, \"{c.qualified}\");",
         "lua_rawset(lua_state, -3);"] ++ "\n"
      ++ (match registry.patches.heap with
        | some heap => heap.renderMetatableField c
        | none => "") := by
  have hname : MetaField.text c ("__cxx_name", .text c.qualified)
      = Text.lines 4
        ["lua_pushliteral(lua_state, \"__cxx_name\");",
         s!"lua_pushliteral(lua_state, \"{c.qualified}\");",
         "lua_rawset(lua_state, -3);"] ++ "\n" := by
    simp only [MetaField.text, MetaValue.push, Text.lines_cons, Text.lines_nil, String.append_assoc,
      String.append_empty]
    rfl
  rw [nameFields, List.map_cons, String.join_cons, hname]
  cases registry.patches.heap with
  | none => rfl
  | some heap =>
    simp only [Option.map_some, Option.toList_some, List.map_singleton, String.join_cons, String.join_nil,
      MetaField.text, MetaValue.push, HeapObjects.renderMetatableField, Text.lines_cons, Text.lines_nil,
      String.append_assoc, String.append_empty]

/-- A step that looks a metamethod up, its lines put together. -/
theorem text_fetchMetamethod {variableName name declared tested answered : String}
    (hdeclared : declared = "auto " ++ variableName ++ " = ") (htested : tested = "if (" ++ variableName ++ " == ")
    (hanswered : answered = "return " ++ variableName ++ "->second(lua_state, self);") :
    AccessStep.text c (.fetchMetamethod variableName name)
      = Text.lines 8
        [declared ++ c.tag ++ "_metamethods.find(\"" ++ name ++ "\");",
         tested ++ c.tag ++ "_metamethods.end()) \x7b return 0; \x7d",
         answered] := by
  subst hdeclared htested hanswered
  simp only [AccessStep.text, toString, String.append_assoc]

theorem text_index : MetaField.text c ("__index", .closure (indexSteps c)) = renderIndex c := by
  have hfetch : AccessStep.text c (.fetchMetamethod "index_it" "__index")
      = Text.lines 8
        ["auto index_it = " ++ c.tag ++ "_metamethods.find(\"" ++ "__index" ++ "\");",
         "if (index_it == " ++ c.tag ++ "_metamethods.end()) \x7b return 0; \x7d",
         "return index_it->second(lua_state, self);"] := text_fetchMetamethod c rfl rfl rfl
  have hplace : AccessStep.text c (.requireObject (-2) [-1, -2] (Messages.memberWithoutSelf c.name))
      = Text.lines 4
        ["    if (!lua_isuserdata(lua_state, -2))",
         "    \x7b",
         "            lua_remove(lua_state, -1);",
         "            lua_remove(lua_state, -2);",
         s!"            luaL_error(lua_state, \"{Messages.memberWithoutSelf c.name}\");",
         "    \x7d"] ++ "\n" := rfl
  simp only [MetaField.text, MetaValue.push, indexSteps, List.map_cons, List.map_nil, String.join_cons,
    String.join_nil, hplace, hfetch]
  simp only [AccessStep.text, renderIndex, Text.lines_cons, Text.lines_nil, String.append_assoc, String.append_empty,
    toString]
  rfl

theorem text_metamethod (name : String) :
    MetaField.text c (name, .closure (metamethodSteps c name)) = renderMetamethod c name := by
  have hfetch : AccessStep.text c (.fetchMetamethod "it" name)
      = Text.lines 8
        ["auto it = " ++ c.tag ++ "_metamethods.find(\"" ++ name ++ "\");",
         "if (it == " ++ c.tag ++ "_metamethods.end()) \x7b return 0; \x7d",
         "return it->second(lua_state, self);"] := text_fetchMetamethod c rfl rfl rfl
  have hplace : AccessStep.text c (.requireObject 1 [1] (Messages.metamethodWithoutSelf name c.name))
      = Text.lines 4
        ["    if (!lua_isuserdata(lua_state, 1))",
         "    \x7b",
         "            lua_remove(lua_state, 1);",
         s!"            luaL_error(lua_state, \"{Messages.metamethodWithoutSelf name c.name}\");",
         "    \x7d"] ++ "\n" := rfl
  simp only [MetaField.text, MetaValue.push, metamethodSteps, List.map_cons, List.map_nil, String.join_cons,
    String.join_nil, hplace, hfetch]
  simp only [AccessStep.text, renderMetamethod, Text.lines_cons, Text.lines_nil, String.append_assoc,
    String.append_empty, toString]

/-- The part of the setup that registers the metatable stores its fields. -/
theorem renderMetatable_eq : renderMetatable registry c
    = openMetatable c ++ String.join ((metaFields registry c).map (MetaField.text c)) ++ closeMetatable := by
  have hclosures : (MetaField.text c ∘ fun name => (name, .closure (metamethodSteps c name))) = renderMetamethod c :=
    funext (text_metamethod c)
  rw [metaFields, List.map_append, String.join_append, text_nameFields, closureFields, List.map_cons, String.join_cons,
    text_index, List.map_map, hclosures, renderMetatable, openMetatable, closeMetatable]
  cases registry.patches.heap <;> simp only [String.append_assoc]

end ClassSetup

end LuaGlue
