/-!
The errors that generated code raises in Lua. Scripts match on their words, so the words are fixed.

A pair of braces in a text is filled in by the generated code when it runs.
-/

namespace LuaGlue.Messages

def protoNotUserdata : String := "first param for 'FunctionProto' was not userdata"

def protoBadSelf : String := "self was '\x7b\x7d', expected FunctionProtoMetatable"

def uncaughtResolution : String := "Overload resolution failed and wasn't caught"

def nullSelf : String := "self was nullptr"

def unknownState : String := "Was unable to find lua state type '\x7b\x7d'"

def indexNotString : String := "accessing __index must be done with a string"

/-- A member of a class is used without an object. -/
def memberWithoutSelf (className : String) : String :=
  s!"{className} member accessed without self context"

/-- A member of a class is used on a null object. -/
def memberWithNullSelf (className : String) : String :=
  s!"{className} member accessed with self == nullptr"

/-- A metamethod of a class is used without an object. -/
def metamethodWithoutSelf (metamethod className : String) : String :=
  s!"metamethod '{metamethod}' for '{className}' accessed without self context"

/-- Several overloads accept the arguments. -/
def ambiguousOverload (function : String) : String :=
  s!"Ambiguous overload for function '{function}' (no overload was specific enough to match the parameters)"

/-- No overload accepts the arguments. -/
def noOverload (function : String) : String := s!"No overload found for function '{function}'"

/-- The first argument is no object at all. -/
def selfNotUserdata (className : String) : String :=
  s!"first param was not userdata of type '{className}'"

/-- The first argument is an object of another class, whose metatable is filled in. -/
def badSelf (tag : String) : String :=
  s!"self was '\x7b\x7d', expected '{tag}Metatable' or derivative"

end LuaGlue.Messages
