/-!
Qualified names of C++ and the scopes they are declared in.

A scope is written `""` for the global namespace and `::A::B` otherwise; a name declared in it is
written after one more `::`. Declarations may spell a scope loosely (`A::B`, `::A::::B::`), and
`normalize` brings every such spelling to the one above.

    A::B   ::A::B   ::A::::B::   --parts-->  ["A", "B"]   --ofParts-->  "::A::B"
-/

namespace LuaGlue.Scope

/-- Does the text begin with `::`? -/
def startsScope : List Char → Bool
  | ':' :: ':' :: _ => true
  | _ => false

/-- The pieces between the separators `::`, read from the left; some may be empty. -/
def segments : List Char → List (List Char)
  | [] => [[]]
  | ':' :: ':' :: rest => [] :: segments rest
  | c :: rest =>
    match segments rest with
    | [] => [[c]]
    | piece :: pieces => (c :: piece) :: pieces

/-- The text without the separators it begins with. -/
def dropSeparators : List Char → List Char
  | ':' :: ':' :: rest => dropSeparators rest
  | text => text

/-- What stands before and after the rightmost separator. -/
def breakLast? : List Char → Option (List Char × List Char)
  | [] => none
  | c :: rest =>
    match breakLast? rest with
    | some (before, after) => some (c :: before, after)
    | none => if startsScope (c :: rest) then some ([], rest.drop 1) else none

/-- The names a scope is made of, outermost first. -/
def parts (scope : String) : List String :=
  ((segments scope.toList).filter fun piece => !piece.isEmpty).map String.ofList

/-- The scope made of these names: each one after a separator. -/
def ofParts (names : List String) : String := String.join (names.map ("::" ++ ·))

/-- The one spelling of a scope: `::A::B`, or nothing for the global namespace. -/
def normalize (scope : String) : String := ofParts (parts scope)

/-- A name together with the scope it is declared in. -/
def qualify (scope name : String) : String := scope ++ "::" ++ name

/-- The scope of a qualified name, normalized, and what follows it. A text without a separator is a
name of the global namespace. -/
def splitQualified (qualified : String) : String × String :=
  match breakLast? qualified.toList with
  | some (scope, name) => (normalize (String.ofList scope), String.ofList name)
  | none => ("", qualified)

/-- The one spelling of a qualified name. -/
def canonical (qualified : String) : String :=
  let (scope, name) := splitQualified qualified
  qualify scope name

/-- A name as seen from the global namespace: exactly one separator in front. -/
def fromGlobal (name : String) : String := "::" ++ String.ofList (dropSeparators name.toList)

/-- Is the name written from the global namespace on? -/
def isGlobal (name : String) : Bool := startsScope name.toList

/-- A scope made part of an identifier: each colon becomes an underscore. -/
def identifier (scope : String) : String :=
  String.ofList (scope.toList.map fun c => if c = ':' then '_' else c)

/-- The tag of a class: the part that every identifier generated for it has in common. -/
def tag (scope name : String) : String := identifier scope ++ "_" ++ name

/-- The initial parts of a list of names, the longest first. -/
def outward : List String → List (List String)
  | [] => [[]]
  | name :: rest => (outward rest).map (name :: ·) ++ [[]]

/-- This scope and the scopes around it, innermost first; the global namespace is the last. -/
def enclosing (scope : String) : List String := (outward (parts scope)).map ofParts

end LuaGlue.Scope
