import LuaGlue.Binding.Inheritance
import LuaGlue.Glue.Self

/-!
The members of a class as Lua sees them.

The wrappers of a class are those of its own functions. The member map leads from names to wrappers,
for the class and all its bases; of several functions of one name the first in the lineage counts. The
members that every class has are added unless a function takes their name.
-/

namespace LuaGlue

/-- An entry of a map of the generated code: a name and what it leads to. -/
abbrev MapEntry := String × String

/-- The first of each group of functions with one name. -/
def firstByName (seen : List String) : List BoundFunction → List BoundFunction
  | [] => []
  | f :: rest =>
    if seen.contains f.name then firstByName seen rest else f :: firstByName (f.name :: seen) rest

namespace Members

variable (registry : Registry) (c : BoundClass)

/-- The name of the wrapper of a member: it carries the tag of the class the member belongs to. -/
def wrapperName (f : BoundFunction) : String :=
  let owner := (f.owner.bind registry.class?).getD c
  s!"{owner.tag}_member_function_wrapper_{f.name}"

/-- What a name leads to: the native wrapper of a redirected member, else the generated one. -/
def target (f : BoundFunction) : String :=
  match f.wrapperName, f.isRedirector with
  | some wrapper, true => wrapper
  | _, _ => wrapperName registry c f

/-- The functions of the class that get a wrapper. -/
def wrapped : List BoundFunction :=
  (c.functions.values.filter fun f => !f.isRedirector && !isOperatorName f.name)
    ++ c.statics.values.filter fun f => !f.isRedirector

/-- The wrappers of the class. -/
def wrappers : Except Abort (List WrapperFunction) :=
  (wrapped c).mapM fun f => WrapperFunction.of (wrapperName registry c f) f registry

/-- The functions of the class and then of its bases. -/
def inLineage : List BoundFunction :=
  (registry.lineage c.id).flatMap fun owner => owner.functions.values

/-- The entries for functions. -/
def entries : List MapEntry :=
  let visible := (inLineage registry c).filter fun f => !isOperatorName f.name
  (firstByName [] visible).map fun f => (f.name, target registry c f)

/-- Does any function in the lineage have this name? -/
def isTaken (name : String) : Bool := (inLineage registry c).any fun f => f.name == name

/-- The entries for the members that every class has. -/
def utilityEntries : List MapEntry :=
  let q := c.qualified
  let helper := s!"{c.selfHelper}<{q}**, true>"
  let assign := s!"lua_util_userdata_member_function_wrapper_Set<\"{c.metatable}\", {q}, {c.convertibleSet}, decltype({helper}), {helper}>"
  let read := "lua_util_userdata_member_function_wrapper_Get"
  let taken := isTaken registry c
  (if taken "Set" || taken "set" then [] else [("Set", assign), ("set", assign)])
    ++ (if taken "Get" || taken "get" then [] else [("Get", read), ("get", read)])
    ++ (["IsValid", "GetAddress"].filter fun name => !taken name).map fun name =>
      (name, s!"lua_util_userdata_member_function_wrapper_{name}<decltype({helper}), {helper}>")

/-- The native function that a metamethod of the class leads to, its own or inherited. -/
def metamethodWrapper (name : String) : Option String :=
  (registry.findMetamethod c.id name).bind (·.wrapperName)

/-- The entries for metamethods. -/
def metamethodEntries : List MapEntry :=
  metamethodNames.filterMap fun name => (metamethodWrapper registry c name).map (name, ·)

/-- An entry as text. -/
def renderEntry (entry : MapEntry) : String := Text.line 4 s!"\x7b\"{entry.1}\", &{entry.2}\x7d,"

/-- The definition of the member map. -/
def renderMap : String :=
  Text.line 0 s!"inline static std::unordered_map<std::string, int (*)(lua_State*)> {c.tag}_member_functions = \x7b"
    ++ String.join ((entries registry c).map renderEntry)
    ++ "\n" ++ Text.line 4 "// Generic utility"
    ++ String.join ((utilityEntries registry c).map renderEntry)
    ++ Text.line 0 "\x7d;"

/-- The definition of the metamethod map. -/
def renderMetamethodMap : String :=
  Text.line 0 s!"inline static std::unordered_map<std::string, int (*)(lua_State*, void*)> {c.tag}_metamethods = \x7b"
    ++ String.join ((metamethodEntries registry c).map renderEntry)
    ++ Text.line 0 "\x7d;"

end Members

end LuaGlue
