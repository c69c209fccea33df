/-!
The arithmetic and the text types of C++ that bindings convert.
-/

namespace LuaGlue

/-- A numeric type of fixed width. -/
inductive Numeric where
  | int8 | int16 | int32 | int64
  | uint8 | uint16 | uint32 | uint64
  | float | double
  deriving DecidableEq, Repr

namespace Numeric

/-- Every numeric type, in the order generated code lists them. -/
def all : List Numeric :=
  [.int8, .int16, .int32, .int64, .uint8, .uint16, .uint32, .uint64, .float, .double]

theorem mem_all (n : Numeric) : n ∈ all := by cases n <;> decide

/-- The name of the type in C++. -/
def cxxName : Numeric → String
  | .int8 => "int8_t"
  | .int16 => "int16_t"
  | .int32 => "int32_t"
  | .int64 => "int64_t"
  | .uint8 => "uint8_t"
  | .uint16 => "uint16_t"
  | .uint32 => "uint32_t"
  | .uint64 => "uint64_t"
  | .float => "float"
  | .double => "double"

/-- Is it a floating-point type? -/
def isFloating : Numeric → Bool
  | .float | .double => true
  | _ => false

end Numeric

/-- A type of text. -/
inductive TextKind where
  /-- A pointer to narrow characters. -/
  | narrowPointer
  /-- A pointer to wide characters. -/
  | widePointer
  /-- The narrow string of the standard library. -/
  | narrow
  /-- The wide string of the standard library. -/
  | wide
  /-- The string type whose width the platform decides; it is treated as wide. -/
  | platform
  deriving DecidableEq, Repr

namespace TextKind

/-- The name of the type in C++, a pointer included. -/
def cxxName : TextKind → String
  | .narrowPointer => "char*"
  | .widePointer => "wchar_t*"
  | .narrow => "std::string"
  | .wide => "std::wstring"
  | .platform => "RC::File::StringType"

/-- The name that modifiers are added to. -/
def baseName : TextKind → String
  | .narrowPointer => "char"
  | .widePointer => "wchar_t"
  | .narrow => "std::string"
  | .wide => "std::wstring"
  | .platform => "::RC::File::StringType"

/-- Has its text to be widened after it was read from Lua? -/
def isWide : TextKind → Bool
  | .widePointer | .wide | .platform => true
  | .narrowPointer | .narrow => false

end TextKind

end LuaGlue
