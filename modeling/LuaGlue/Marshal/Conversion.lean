import LuaGlue.Marshal.Closure

/-!
The second phase of reading a parameter.

Some types are read in two phases: `retrieve` gives an intermediate value, named `param_inter_N`, and
a conversion makes the parameter `param_N` of it. Wide texts, function types and arrays are converted.
-/

namespace LuaGlue

/-- A conversion of the intermediate value of a slot. -/
inductive Conversion where
  /-- Narrow text is widened. -/
  | widen (kind : TextKind) (slot : Nat)
  /-- A Lua function becomes a native one. -/
  | closure (closure : Closure)
  /-- The wrapper struct of an array is read as the array of this type. -/
  | array (type : String) (slot : Nat)
  deriving DecidableEq, Repr

namespace Conversion

/-- The statements, without the semicolon of the last one. -/
def render : Conversion → String
  | .widen .widePointer p =>
    s!"auto param_ansi_{p} = std::string\x7bparam_inter_{p}\x7d;\n"
      ++ Text.line 16 s!"auto param_wide_{p} = std::wstring\x7bparam_ansi_{p}.begin(), param_ansi_{p}.end()\x7d;"
      ++ Text.openLines 16 [s!"auto param_{p} = param_wide_{p}.c_str()"]
  | .widen .platform p =>
    s!"auto param_unknown_{p} = std::string\x7bparam_inter_{p}\x7d;\n"
      ++ Text.openLines 16 [s!"auto param_{p} = RC::File::StringType\x7bparam_unknown_{p}.begin(), param_unknown_{p}.end()\x7d"]
  | .widen _ p =>
    s!"auto param_ansi_{p} = std::string\x7bparam_inter_{p}\x7d;\n"
      ++ Text.openLines 16 [s!"auto param_{p} = std::wstring\x7bparam_ansi_{p}.begin(), param_ansi_{p}.end()\x7d"]
  | .closure c => c.render
  | .array type p => s!"auto& param_{p} = *std::bit_cast<{type}*>(param_inter_{p})"

/-- The slots whose saved parameters have to be dropped after the native call. -/
def savedSlots : Conversion → List Nat
  | .closure c => if c.hasStorage then [] else [c.slot]
  | _ => []

end Conversion

namespace CxxType

/-- Is a parameter of this type read in two phases? -/
def needsConversion : CxxType → Bool
  | .text kind _ => kind.isWide
  | .function _ _ _ _ | .array _ _ _ => true
  | _ => false

/-- The second phase for a parameter of this type. -/
def conversion (slot : Nat) (registry : Registry) (t : CxxType) : Except Abort Conversion :=
  match t with
  | .text kind _ => if kind.isWide then .ok (.widen kind slot) else .error (t.unsupported "converted")
  | .function params result hasStorage _ =>
    Conversion.closure <$> Closure.ofSignature ⟨params, result, hasStorage⟩ slot registry
  | .array names element _ => do
    let name ← element.elementName
    return .array s!"{names.template}<{element.constness}{name}{element.marks}>" slot
  | _ => .error (t.unsupported "converted")

end CxxType

end LuaGlue
