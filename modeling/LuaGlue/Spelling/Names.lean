import LuaGlue.Binding.Registry

/-!
What a name in a type spelling stands for.

A builtin name stands for itself. Any other name is looked for in the scope it is written in and then
in each scope around that one, among the names that the declarations introduce.
-/

namespace LuaGlue

/-- The qualified names of all declared classes and enums, bound or not. -/
structure KnownNames where
  classes : NameSet := ∅
  enums : NameSet := ∅

namespace KnownNames

/-- The names with one more class. -/
def addClass (known : KnownNames) (scope name : String) : KnownNames :=
  { known with classes := known.classes.insert (Scope.qualify scope name) }

/-- The names with one more enum. -/
def addEnum (known : KnownNames) (scope name : String) : KnownNames :=
  { known with enums := known.enums.insert (Scope.qualify scope name) }

end KnownNames

namespace Spelling

/-- The name as one of the known ones: as it stands when it is written from the global namespace,
else in the innermost scope that has it. -/
def resolve (known : NameSet) (name scope : String) : Option String :=
  if Scope.isGlobal name then if known.contains name then some name else none
  else ((Scope.enclosing scope).map fun outer => Scope.qualify outer name).find? known.contains

/-- The name taken as declared in this very scope. -/
def assume (name scope : String) : String :=
  if Scope.isGlobal name then name else Scope.qualify scope name

/-- The names of numeric types. -/
def numericNames : List (String × Numeric) :=
  [("int8_t", .int8), ("signed char", .int8), ("int16_t", .int16), ("short", .int16),
   ("int32_t", .int32), ("int", .int32), ("int64_t", .int64), ("long long", .int64),
   ("uint8_t", .uint8), ("unsigned char", .uint8), ("uint16_t", .uint16),
   ("unsigned short", .uint16), ("uint32_t", .uint32), ("unsigned int", .uint32),
   ("unsigned", .uint32), ("uint64_t", .uint64), ("unsigned long long", .uint64),
   ("size_t", .uint64), ("float", .float), ("double", .double)]

/-- The names of text types that are no pointers. -/
def textNames : List (String × TextKind) :=
  [("std::string", .narrow), ("std::string_view", .narrow), ("std::wstring", .wide),
   ("std::wstring_view", .wide), ("File::StringType", .platform),
   ("File::StringViewType", .platform), ("RC::File::StringType", .platform)]

/-- The type a builtin name stands for. A character type needs a pointer. -/
def builtin? (name : String) (isPointer : Bool) : Option (Except SkipReason CxxType) :=
  if name = "void" then some (.ok (.void {}))
  else if name = "bool" then some (.ok (.bool {}))
  else if name = "char" then
    some (if isPointer then .ok (.text .narrowPointer {}) else .error .plainChar)
  else if name = "wchar_t" then
    some (if isPointer then .ok (.text .widePointer {}) else .error (.unhandledType "wchar_t"))
  else if let some kind := numericNames.lookup name then some (.ok (.numeric kind {}))
  else (textNames.lookup name).map fun kind => .ok (.text kind {})

/-- Is the text made of the letters, digits, underscores and colons of ASCII alone? -/
def isIdentifier (text : List Char) : Bool :=
  !text.isEmpty && text.all fun c => c.isAlphanum || c = '_' || c = ':'

/-- The class of this qualified name. -/
def classRef (qualified : String) (forward : Option ForwardKeyword) : ClassRef :=
  let (scope, name) := Scope.splitQualified qualified
  { name, scope, forward }

end Spelling

end LuaGlue
