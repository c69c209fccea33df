/-!
Lines of generated text.

A block of lines is written at one indentation; each line ends in a line feed. Braces are spelled
through `openBrace` and `closeBrace` where a line is put together from parts.
-/

namespace LuaGlue.Text

/-- The brace that opens a block. -/
def openBrace : String := "\x7b"

/-- The brace that closes a block. -/
def closeBrace : String := "\x7d"

/-- So many blanks. -/
def blanks (n : Nat) : String := String.ofList (List.replicate n ' ')

/-- One line at an indentation. -/
def line (indent : Nat) (text : String) : String := blanks indent ++ text ++ "\n"

/-- Lines at one indentation. -/
def lines (indent : Nat) (texts : List String) : String := String.join (texts.map (line indent))

/-- Lines at one indentation, the last one without its line feed. -/
def openLines (indent : Nat) (texts : List String) : String :=
  "\n".intercalate (texts.map (blanks indent ++ ·))

/-- The texts one after another, with this one between any two. -/
def separated (separator : String) (texts : List String) : String := separator.intercalate texts

theorem lines_cons (indent : Nat) (text : String) (texts : List String) :
    lines indent (text :: texts) = line indent text ++ lines indent texts := by
  rw [lines, List.map_cons, String.join_cons, ← lines]

theorem lines_nil (indent : Nat) : lines indent [] = "" := rfl

theorem blanks_add (m n : Nat) : blanks (m + n) = blanks m ++ blanks n := by
  rw [blanks, blanks, blanks, ← String.ofList_append, List.replicate_append_replicate]

/-- Blanks in front of a line are indentation. -/
theorem line_blanks (indent n : Nat) (text : String) :
    line indent (blanks n ++ text) = line (indent + n) text := by
  simp only [line, blanks_add, String.append_assoc]

end LuaGlue.Text
