import LuaGlue.Toml.Quoted
import LuaGlue.Toml.Scalar
import LuaGlue.Toml.Section

/-!
Reading a TOML document.

The text is read line by line into statements, and the statements make up the entries of one table. In
arrays and inline tables line ends and comments count as blanks, and a comma may follow the last item.
Brackets are nested at most `maxNesting` deep, and a key has at most so many names.
-/

namespace LuaGlue.Toml

/-! ### Keys -/

/-- May the character stand in a key without quotes? -/
def isBareChar (c : Char) : Bool := c.isAlphanum || c = '_' || c = '-'

/-- Reads one name of a key. -/
def name (text : List Char) : Option (Read String text) :=
  match string false text with
  | some r => some r
  | none =>
    let taken := text.takeWhile isBareChar
    if h : 0 < taken.length ∧ 0 < text.length then
      some ⟨String.ofList taken, text.drop taken.length, by rw [List.length_drop]; omega⟩
    else none

/-- Reads names with points between them. -/
def dottedNames (text : List Char) : Option (Read Key text) :=
  match name text with
  | none => none
  | some first =>
    match _h : skipBlanks first.rest with
    | '.' :: rest =>
      (dottedNames (skipBlanks rest)).map fun r =>
        r.within text (fun others => ⟨first.value :: others.way, others.name⟩) (by
          have h1 := length_skipBlanks_le first.rest
          have h2 := length_skipBlanks_le rest
          have h3 := first.shorter
          rw [_h, List.length_cons] at h1
          omega)
    | _ => some ⟨⟨[], first.value⟩, first.rest, first.shorter⟩
termination_by text.length
decreasing_by
  have h1 := length_skipBlanks_le first.rest
  have h2 := length_skipBlanks_le rest
  have h3 := first.shorter
  rw [_h, List.length_cons] at h1
  omega

/-- How deep brackets and tables may be nested. -/
def maxNesting : Nat := 80

/-- Reads a key. -/
def key (text : List Char) : Option (Read Key text) :=
  (dottedNames text).filter fun r => r.value.way.length < maxNesting

/-! ### Values -/

/-- A reader of one item. -/
abbrev Reader (α : Type) := (text : List Char) → Option (Read α text)

/-- Reads items with commas between them, up to a closing bracket. -/
def items {α : Type} (item : Reader α) (close : Char) (text : List Char) :
    Option (Read (List α) text) :=
  match _hs : skipLines true text with
  | [] => none
  | c :: rest =>
    if c = close then
      some ⟨[], rest, by
        have := length_skipLines_le true text
        rw [_hs, List.length_cons] at this
        omega⟩
    else
      match item (skipLines true text) with
      | none => none
      | some first =>
        match _ht : skipLines true first.rest with
        | [] => none
        | d :: others =>
          have hlt : others.length < text.length := by
            have h1 := length_skipLines_le true text
            have h2 := length_skipLines_le true first.rest
            have h3 := first.shorter
            rw [_ht, List.length_cons] at h2
            omega
          if d = close then some ⟨[first.value], others, hlt⟩
          else if d = ',' then
            (items item close others).map fun r =>
              r.within text (first.value :: ·) (Nat.le_of_lt hlt)
          else none
termination_by text.length

/-- Reads a key and the value it is given; `spansLines` is whether the equals sign and the value may
stand on lines of their own. -/
def assignment (spansLines : Bool) (value : Reader Value) (text : List Char) :
    Option (Read Assignment text) :=
  match key text with
  | none => none
  | some k =>
    match _h : skipGap spansLines k.rest with
    | '=' :: rest =>
      (value (skipGap spansLines rest)).map fun r =>
        r.within text (⟨k.value, ·⟩) (by
          have h1 := length_skipGap_le spansLines k.rest
          have h2 := length_skipGap_le spansLines rest
          have h3 := k.shorter
          rw [_h, List.length_cons] at h1
          omega)
    | _ => none

/-- Reads a value without brackets. -/
def simple : Reader Value := fun text =>
  match string true text with
  | some r => some (r.within text .text (Nat.le_refl _))
  | none => scalar text

/-- Reads a value with brackets around it nested at most so deep. -/
def value : Nat → Reader Value
  | 0 => simple
  | depth + 1 => fun text =>
    match text with
    | '[' :: rest => (items (value depth) ']' rest).map fun r => r.behind '[' .array
    | '\x7b' :: rest =>
      match items (assignment true (value depth)) '\x7d' rest with
      | none => none
      | some r =>
        (inlineEntries r.value).map fun entries => r.behind '\x7b' fun _ => .table entries
    | other => simple other

/-! ### Documents -/

/-- Reads a key and the brackets that close a header. -/
def headerKey (close : List Char) (text : List Char) : Option (Read Key text) :=
  match key (skipBlanks text) with
  | none => none
  | some k =>
    let rest := skipBlanks k.rest
    if close.isPrefixOf rest then
      some ⟨k.value, rest.drop close.length, by
        have h1 := length_skipBlanks_le text
        have h2 := length_skipBlanks_le k.rest
        have h3 := k.shorter
        simp only [rest, List.length_drop]
        omega⟩
    else none

/-- Reads the header of a section. -/
def header (text : List Char) : Option (Read Header text) :=
  match text with
  | '[' :: '[' :: rest =>
    (headerKey [']', ']'] rest).map fun r => (r.behind '[' (⟨·, true⟩)).behind '[' id
  | '[' :: rest => (headerKey [']'] rest).map fun r => r.behind '[' (⟨·, false⟩)
  | _ => none

/-- Reads a header or an assignment. -/
def statement (text : List Char) : Option (Read Statement text) :=
  if text.head? = some '[' then
    (header text).map fun r => r.within text Statement.opening (Nat.le_refl _)
  else
    (assignment false (value maxNesting) text).map fun r =>
      r.within text Statement.assigning (Nat.le_refl _)

/-- The statements of a document. -/
def statements (text : List Char) : Option (List Statement) :=
  if (skipComment (skipLines true text)).isEmpty then some []
  else
    match statement (skipLines true text) with
    | none => none
    | some first =>
      match _h : endOfLine? first.rest with
      | none => none
      | some rest => (statements rest).map (first.value :: ·)
termination_by text.length
decreasing_by
  have h1 := length_skipLines_le true text
  have h2 := length_le_of_endOfLine? _h
  have h3 := first.shorter
  omega

/-- The text without the mark that tells the order of its bytes. -/
def skipByteOrderMark : List Char → List Char
  | '\ufeff' :: rest => rest
  | text => text

/-- The entries of a document, unless it is malformed. -/
def parse? (document : String) : Option Entries := do
  documentEntries (← statements (skipByteOrderMark document.toList))

end LuaGlue.Toml
