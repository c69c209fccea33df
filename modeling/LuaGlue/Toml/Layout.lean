/-!
What stands between the items of a TOML document: blanks, line ends and comments.

A reader takes a piece off the front of a text. `Read` is what it returns: the piece, the text after
it, and the fact that this text is shorter, by which readers that repeat others come to an end.
-/

namespace LuaGlue.Toml

/-- A piece read off the front of a text. -/
structure Read (α : Type) (text : List Char) where
  value : α
  /-- The text after the piece. -/
  rest : List Char
  /-- Something has been taken off. -/
  shorter : rest.length < text.length

/-- The same piece, made into something else, as read off a longer text. -/
def Read.within {α β : Type} {inner : List Char} (r : Read α inner) (text : List Char)
    (f : α → β) (h : inner.length ≤ text.length) : Read β text :=
  ⟨f r.value, r.rest, Nat.lt_of_lt_of_le r.shorter h⟩

/-- A piece that is made of the first character and so many after it. -/
def Read.front {α : Type} (value : α) (count : Nat) (c : Char) (rest : List Char) : Read α (c :: rest) :=
  ⟨value, rest.drop count, Nat.lt_succ_of_le (List.drop_sublist count rest).length_le⟩

/-- The same piece, made into something else, as read off the text with one more character in front. -/
def Read.behind {α β : Type} {rest : List Char} (r : Read α rest) (c : Char) (f : α → β) :
    Read β (c :: rest) :=
  ⟨f r.value, r.rest, Nat.lt_succ_of_lt r.shorter⟩

/-- Two pieces one after the other, put together. -/
def Read.followedBy {α β γ : Type} {text : List Char} (r : Read α text) (next : Read β r.rest)
    (f : α → β → γ) : Read γ text :=
  ⟨f r.value next.value, next.rest, Nat.lt_trans next.shorter r.shorter⟩

/-- May the character stand in a comment or a string? Control characters may not, except the tab. -/
def isPlain (c : Char) : Bool := c = '\t' || (' ' ≤ c && c ≠ '\x7f')

/-- The text without the blanks it begins with. -/
def skipBlanks (text : List Char) : List Char := text.dropWhile fun c => c = ' ' || c = '\t'

/-- The text without the comment it begins with. -/
def skipComment : List Char → List Char
  | '#' :: rest => rest.dropWhile isPlain
  | text => text

/-- The text after the line end it begins with. A carriage return alone ends no line. -/
def newline? : List Char → Option (List Char)
  | '\n' :: rest => some rest
  | '\r' :: '\n' :: rest => some rest
  | _ => none

theorem length_skipBlanks_le (text : List Char) : (skipBlanks text).length ≤ text.length :=
  (List.dropWhile_sublist _).length_le

theorem length_skipComment_le (text : List Char) : (skipComment text).length ≤ text.length := by
  unfold skipComment
  split
  · exact Nat.le_succ_of_le (List.dropWhile_sublist _).length_le
  · exact Nat.le_refl _

theorem length_lt_of_newline? {text rest : List Char} (h : newline? text = some rest) :
    rest.length < text.length := by
  unfold newline? at h
  split at h
  · simp only [Option.some.injEq] at h; subst h; simp
  · simp only [Option.some.injEq] at h; subst h; simp only [List.length_cons]; omega
  · simp at h

/-- The text without the blanks it begins with, and without the comment after them if comments count. -/
def skipLineEnd (comments : Bool) (text : List Char) : List Char :=
  if comments then skipComment (skipBlanks text) else skipBlanks text

theorem length_skipLineEnd_le (comments : Bool) (text : List Char) :
    (skipLineEnd comments text).length ≤ text.length := by
  have h1 := length_skipBlanks_le text
  have h2 := length_skipComment_le (skipBlanks text)
  unfold skipLineEnd
  split <;> omega

/-- The text without the blanks and line ends it begins with, and without comments if those count too.
A comment that no line end follows stays. -/
def skipLines (comments : Bool) (text : List Char) : List Char :=
  match _h : newline? (skipLineEnd comments text) with
  | some rest => skipLines comments rest
  | none => skipBlanks text
termination_by text.length
decreasing_by
  have h1 := length_lt_of_newline? _h
  have h2 := length_skipLineEnd_le comments text
  omega

theorem length_skipLines_le (comments : Bool) (text : List Char) :
    (skipLines comments text).length ≤ text.length := by
  fun_induction skipLines comments text with
  | case1 text rest h ih =>
    have h1 := length_lt_of_newline? h
    have h2 := length_skipLineEnd_le comments text
    omega
  | case2 text h => exact length_skipBlanks_le text

/-- The text without the blanks it begins with, and without line ends and comments if lines do not count. -/
def skipGap (spansLines : Bool) (text : List Char) : List Char :=
  if spansLines then skipLines true text else skipBlanks text

theorem length_skipGap_le (spansLines : Bool) (text : List Char) :
    (skipGap spansLines text).length ≤ text.length := by
  unfold skipGap
  split
  · exact length_skipLines_le true text
  · exact length_skipBlanks_le text

/-- The text after the end of a line: blanks, a comment, and a line end or the end of the text. -/
def endOfLine? (text : List Char) : Option (List Char) :=
  let text := skipComment (skipBlanks text)
  if text.isEmpty then some [] else newline? text

theorem length_le_of_endOfLine? {text rest : List Char} (h : endOfLine? text = some rest) :
    rest.length ≤ text.length := by
  unfold endOfLine? at h
  have h1 := length_skipBlanks_le text
  have h2 := length_skipComment_le (skipBlanks text)
  dsimp only at h
  split at h
  · simp only [Option.some.injEq] at h; subst h; simp
  · have h3 := length_lt_of_newline? h; omega

end LuaGlue.Toml
