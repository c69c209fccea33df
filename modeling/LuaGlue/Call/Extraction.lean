import LuaGlue.Binding.Function
import LuaGlue.Marshal.Conversion

/-!
The code that takes the arguments of one overload off the Lua stack.

Each slot is read in one of three ways: an object of a class in one step, any other type by a check
and then its value, with a second phase where the type needs one. The same code stands at two places,
in a function with one overload and in a branch of the dispatch among several; `Layout` tells them
apart.
-/

namespace LuaGlue

/-- Where the code stands. -/
inductive Layout where
  /-- In the body of a function with one overload. -/
  | body
  /-- In the branch of one of several overloads. -/
  | branch
  deriving DecidableEq, Repr

/-- The indentation of the code. -/
def Layout.indent : Layout → Nat
  | .body => 8
  | .branch => 16

/-- How the value of a checked slot becomes the parameter. -/
inductive Reading where
  /-- The value is the parameter, perhaps bound as a reference. -/
  | direct (byReference : Bool) (value : String)
  /-- The value is intermediate and is converted. -/
  | converted (value : String) (conversion : Conversion)
  deriving DecidableEq, Repr

/-- The code that reads one slot. -/
inductive Extraction where
  /-- An object of a class, checked and extracted in one step. -/
  | object (fetch : UserdataFetch)
  /-- A check and then the value. -/
  | checked (slot : Nat) (check : String) (reading : Reading)
  deriving DecidableEq, Repr

namespace Extraction

/-- Is a parameter of this type bound as a reference? In a function with one overload a text is
copied instead. -/
def bindsReference (layout : Layout) (t : CxxType) : Bool :=
  match layout with
  | .body => !t.isText && t.isReference
  | .branch => t.isReference

/-- The code that reads a slot as this type. -/
def ofType (layout : Layout) (registry : Registry) (t : CxxType) (slot : Nat) :
    Except Abort Extraction :=
  match t.fetch? slot with
  | some fetch => .ok (.object fetch)
  | none => do
    let value ← t.retrieve slot registry
    let reading ←
      if t.needsConversion then Reading.converted value <$> t.conversion slot registry
      else pure (.direct (bindsReference layout t) value)
    return .checked slot (t.validate slot) reading

/-- The slots whose saved parameters this code grows. -/
def savedSlots : Extraction → List Nat
  | .checked _ _ (.converted _ conversion) => conversion.savedSlots
  | _ => []

/-- The check of an argument. Its number counts the object a member is called on. -/
def renderCheck (indent : Nat) (slot : Nat) (check : String) : String :=
  Text.line indent s!"luaL_argcheck(lua_state, {check}, {slot + 1}, \"\");"

/-- The statements. -/
def render (indent : Nat) : Extraction → String
  | .object fetch => fetch.render
  | .checked slot check (.direct byReference value) =>
    let mark := if byReference then "&" else ""
    renderCheck indent slot check ++ Text.line indent s!"auto{mark} param_{slot} = {value};"
  | .checked slot check (.converted value conversion) =>
    renderCheck indent slot check
      ++ Text.line indent s!"auto param_inter_{slot} = {value};"
      ++ Text.line indent s!"{conversion.render};"

/-- The code that reads all arguments of an overload, in order. -/
def ofOverload (layout : Layout) (registry : Registry) (overload : Overload) :
    Except Abort (List Extraction) :=
  overload.zipIdx.mapM fun (param, i) => ofType layout registry param.type (i + 1)

/-- The statements for all arguments; in a body a blank line follows each. -/
def renderAll (layout : Layout) (extractions : List Extraction) : String :=
  let gap := match layout with
    | .body => "\n"
    | .branch => ""
  String.join (extractions.map fun e => e.render layout.indent ++ gap)

end Extraction

end LuaGlue
