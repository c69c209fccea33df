import LuaGlue.Toml.Layout

/-!
Strings of TOML.

    "a\tb"      basic: a backslash escapes        'a\tb'      literal: nothing escapes
    """ ... """ and ''' ... ''' may span lines; a line end right after the opening quotes is dropped

The readers here begin behind the opening quotes. In a string of many lines, quotes that stand directly
before the closing three belong to the content, two at most; a backslash at the end of a line joins the
line with the next text.
-/

namespace LuaGlue.Toml

/-- The value of a hexadecimal digit. -/
def hexDigit? (c : Char) : Option Nat :=
  if '0' ≤ c ∧ c ≤ '9' then some (c.toNat - 48)
  else if 'a' ≤ c ∧ c ≤ 'f' then some (c.toNat - 87)
  else if 'A' ≤ c ∧ c ≤ 'F' then some (c.toNat - 55)
  else none

/-- The character with this code point in hexadecimal digits, if there is one. -/
def charOfHex? (digits : List Char) : Option Char := do
  let code := (← digits.mapM hexDigit?).foldl (fun n d => 16 * n + d) 0
  if code.isValidChar then some (Char.ofNat code) else none

/-- The characters that one letter behind a backslash stands for. -/
def shortEscapes : List (Char × Char) :=
  [('b', '\x08'), ('t', '\t'), ('n', '\n'), ('f', '\x0c'), ('r', '\r'), ('e', '\x1b'), ('"', '"'),
   ('\\', '\\')]

/-- Reads what stands behind a backslash. -/
def escape (text : List Char) : Option (Read Char text) :=
  match text with
  | [] => none
  | letter :: rest =>
    let digits := if letter = 'x' then 2 else if letter = 'u' then 4 else if letter = 'U' then 8 else 0
    if digits = 0 then (shortEscapes.lookup letter).map fun c => .front c 0 letter rest
    else if (rest.take digits).length < digits then none
    else (charOfHex? (rest.take digits)).map fun c => .front c digits letter rest

/-- Reads a string that ends with a quote on the same line. -/
def quoted (quote : Char) (escapes : Bool) (text : List Char) : Option (Read (List Char) text) :=
  match text with
  | [] => none
  | c :: rest =>
    if c = quote then some (.front [] 0 c rest)
    else if c = '\\' ∧ escapes then
      match escape rest with
      | none => none
      | some e =>
        (quoted quote escapes e.rest).map fun r => (e.followedBy r (· :: ·)).behind c id
    else if isPlain c then
      (quoted quote escapes rest).map fun r => r.behind c (c :: ·)
    else none
termination_by text.length
decreasing_by
  · exact Nat.lt_succ_of_lt e.shorter
  · exact Nat.lt_succ_self _

/-- Reads three quotes and the content that stands between them and two more. -/
def closingQuotes (quote : Char) (text : List Char) : Option (Read (List Char) text) :=
  match text with
  | a :: b :: c :: rest =>
    if a = quote ∧ b = quote ∧ c = quote then
      let extra := (rest.takeWhile (· = quote)).take 2
      some (((Read.front extra extra.length c rest).behind b id).behind a id)
    else none
  | _ => none

/-- The text after a line end, blanks and empty lines: what a backslash at the end of a line joins. -/
def joinedLine? (text : List Char) : Option (List Char) :=
  (newline? (skipBlanks text)).map (skipLines false)

theorem length_lt_of_joinedLine? {text rest : List Char} (h : joinedLine? text = some rest) :
    rest.length < text.length := by
  obtain ⟨line, hline, rfl⟩ := Option.map_eq_some_iff.1 h
  have h1 := length_lt_of_newline? hline
  have h2 := length_skipBlanks_le text
  have h3 := length_skipLines_le false line
  omega

/-- Reads a string that ends with three quotes. -/
def quotedLines (quote : Char) (escapes : Bool) (text : List Char) :
    Option (Read (List Char) text) :=
  match closingQuotes quote text with
  | some r => some r
  | none =>
    match text with
    | [] => none
    | c :: rest =>
      match _hn : newline? (c :: rest) with
      | some line =>
        let taken := if c = '\r' then ['\r', '\n'] else ['\n']
        (quotedLines quote escapes line).map fun r =>
          r.within (c :: rest) (taken ++ ·) (Nat.le_of_lt (length_lt_of_newline? _hn))
      | none =>
        if c = '\\' ∧ escapes then
          match _hj : joinedLine? rest with
          | some line =>
            (quotedLines quote escapes line).map fun r =>
              (r.within rest id (Nat.le_of_lt (length_lt_of_joinedLine? _hj))).behind c id
          | none =>
            match escape rest with
            | none => none
            | some e =>
              (quotedLines quote escapes e.rest).map fun r => (e.followedBy r (· :: ·)).behind c id
        else if isPlain c then
          (quotedLines quote escapes rest).map fun r => r.behind c (c :: ·)
        else none
termination_by text.length
decreasing_by
  · exact length_lt_of_newline? _hn
  · exact Nat.lt_succ_of_lt (length_lt_of_joinedLine? _hj)
  · exact Nat.lt_succ_of_lt e.shorter
  · exact Nat.lt_succ_self _

/-- Reads a string, with its opening quotes; `many` is whether it may span lines. -/
def string (many : Bool) (text : List Char) : Option (Read String text) :=
  match text with
  | [] => none
  | quote :: rest =>
    if quote = '"' ∨ quote = '\'' then
      let escapes := quote = '"'
      if many ∧ [quote, quote].isPrefixOf rest then
        let body := (newline? (rest.drop 2)).getD (rest.drop 2)
        (quotedLines quote escapes body).map fun r =>
          r.within (quote :: rest) String.ofList (by
            have h1 : body.length ≤ (rest.drop 2).length := by
              cases hn : newline? (rest.drop 2) with
              | none => simp [body, hn]
              | some line => simpa [body, hn] using Nat.le_of_lt (length_lt_of_newline? hn)
            simp at h1 ⊢
            omega)
      else (quoted quote escapes rest).map fun r => r.behind quote String.ofList
    else none

end LuaGlue.Toml
