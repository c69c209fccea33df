import LuaGlue.Toml.Value

/-!
Values of TOML as records, lists, numbers and texts.

A record is written as a table, or as an array that gives its fields in order. Unknown keys are read
and forgotten, further elements are not even read. A field that is missing takes its default; a field
that may be absent is absent, but an array has to give it.
-/

namespace LuaGlue.Toml

/-- A reading of values as something else. -/
abbrev Decoder (α : Type) := Value → Option α

namespace Decoder

/-- A text. -/
def text : Decoder String
  | .text content => some content
  | _ => none

/-- A truth value. -/
def boolean : Decoder Bool
  | .boolean b => some b
  | _ => none

/-- An integer without sign that so many bits hold. -/
def natural (bits : Nat) : Decoder Nat
  | .integer n => if 0 ≤ n ∧ n.toNat < Nat.pow 2 bits then some n.toNat else none
  | _ => none

/-- A list. -/
def list {α : Type} (element : Decoder α) : Decoder (List α)
  | .array elements => elements.mapM element
  | _ => none

end Decoder

/-- The fields of a record. -/
structure Fields where
  get? : String → Option Value
  /-- Has the record been written as an array? -/
  positional : Bool

namespace Fields

/-- The fields of a value, given their names in order. A moment is a record without any. -/
def of? (names : List String) : Value → Option Fields
  | .table entries =>
    if entriesReadable (entries.filter fun (name, _) => !names.contains name) then
      some ⟨fun name => entries.lookup name, false⟩
    else none
  | .array elements => some ⟨fun name => (names.zip elements).lookup name, true⟩
  | .moment _ => some ⟨fun _ => none, false⟩
  | _ => none

/-- A field that has to be there. -/
def required {α : Type} (fields : Fields) (name : String) (decode : Decoder α) : Option α :=
  (fields.get? name).bind decode

/-- A field that has a default. -/
def withDefault {α : Type} (fields : Fields) (name : String) (decode : Decoder α) (default : α) :
    Option α :=
  match fields.get? name with
  | some value => decode value
  | none => some default

/-- A field that may be absent. -/
def optional {α : Type} (fields : Fields) (name : String) (decode : Decoder α) :
    Option (Option α) :=
  match fields.get? name with
  | some value => (decode value).map some
  | none => if fields.positional then none else some none

end Fields

end LuaGlue.Toml
