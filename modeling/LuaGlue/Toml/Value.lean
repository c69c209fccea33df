/-!
The values a TOML document is made of.

A table is the list of its entries; the reader makes sure that no key stands twice. A moment is a date,
a time of day or both. Nothing computes with floats or moments, so they keep the text they were written
as. A number that no reader can read is kept as such, because it does no harm where nobody reads it.
-/

namespace LuaGlue.Toml

/-- A value. -/
inductive Value where
  | text (content : String)
  | integer (value : Int)
  | float (literal : String)
  /-- A number that cannot be read: an integer beyond 128 bits, a float beyond 64, or no number after
  all. -/
  | unreadable (literal : String)
  | boolean (value : Bool)
  /-- A date, a time of day, or both. -/
  | moment (literal : String)
  | array (elements : List Value)
  | table (entries : List (String × Value))
  deriving Repr

/-- The entries of a table. -/
abbrev Entries := List (String × Value)

mutual

/-- Can the value be read to the bottom? -/
def Value.isReadable : Value → Bool
  | .unreadable _ => false
  | .array elements => allReadable elements
  | .table entries => entriesReadable entries
  | .text _ | .integer _ | .float _ | .boolean _ | .moment _ => true

/-- Can these values be read? -/
def allReadable : List Value → Bool
  | [] => true
  | element :: rest => element.isReadable && allReadable rest

/-- Can the values of these entries be read? -/
def entriesReadable : List (String × Value) → Bool
  | [] => true
  | (_, value) :: rest => value.isReadable && entriesReadable rest

end

end LuaGlue.Toml
