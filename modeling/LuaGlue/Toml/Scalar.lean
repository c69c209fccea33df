import LuaGlue.Toml.Moment
import LuaGlue.Toml.Value

/-!
Values of TOML that are written without quotes and brackets: booleans, numbers, dates and times.

    true   +99   1_000   0xdead_beef   0o755   0b1101   6.26e-34   -inf   nan   1979-05-27

Underscores stand between digits only, and a decimal number begins with a zero only if that is all of
its integer part. An integer can be read if it fits into 128 bits, and a finite float if it fits into 64.
Some texts with underscores pass for integers although they write none; they cannot be read either.
-/

namespace LuaGlue.Toml

/-- Is the text made of digits, single underscores between them? -/
def isDigitRun (isDigit : Char → Bool) : List Char → Bool
  | [] => false
  | [c] => isDigit c
  | c :: '_' :: rest => isDigit c && isDigitRun isDigit rest
  | c :: rest => isDigit c && isDigitRun isDigit rest

/-- The digits of a run, without underscores. -/
def runDigits (text : List Char) : List Char := text.filter fun c => c ≠ '_'

/-- Is the text a decimal number without sign? -/
def isDecimal (text : List Char) : Bool :=
  isDigitRun Char.isDigit text && (text.length = 1 || text.head? ≠ some '0')

/-- The text without a sign, and whether the sign is a minus. -/
def splitSign : List Char → Bool × List Char
  | '+' :: rest => (false, rest)
  | '-' :: rest => (true, rest)
  | text => (false, text)

/-- The digit of a base up to sixteen, in either case. -/
def digitIn? (base : Nat) (c : Char) : Option Nat :=
  let value := if c.isDigit then c.toNat - 48 else (c.toLower.toNat - 97) + 10
  if (c.isDigit || c.isAlpha) && value < base then some value else none

/-- Is the character a hexadecimal digit, in either case? -/
def isHexDigit (c : Char) : Bool := (digitIn? 16 c).isSome

/-- The number that a run of digits of this base writes. -/
def natInBase? (base : Nat) (text : List Char) : Option Nat :=
  if isDigitRun (fun c => (digitIn? base c).isSome) text then
    some ((runDigits text).foldl (fun n c => base * n + (digitIn? base c).getD 0) 0)
  else none

/-- The integer that a text writes. Only a decimal one may have a sign. -/
def integer? (text : List Char) : Option Int :=
  match text with
  | '0' :: 'x' :: digits => (natInBase? 16 digits).map Int.ofNat
  | '0' :: 'o' :: digits => (natInBase? 8 digits).map Int.ofNat
  | '0' :: 'b' :: digits => (natInBase? 2 digits).map Int.ofNat
  | _ =>
    let (negative, digits) := splitSign text
    if isDecimal digits then
      let n : Int := natOfDigits (runDigits digits)
      some (if negative then -n else n)
    else none

/-- Does the integer fit into 128 bits, with or without sign? -/
def fitsInteger (n : Int) : Bool :=
  if n < 0 then n.natAbs ≤ Nat.pow 2 127 else n.natAbs < Nat.pow 2 128

/-- A float as its parts: all digits, how many of them follow the point, and the exponent. -/
structure FloatParts where
  digits : List Char
  places : Nat
  exponent : Int

/-- The part of a float from a mark on: nothing, or what follows the mark. -/
def splitMark (isMark : Char → Bool) (text : List Char) : List Char × Option (List Char) :=
  match text.dropWhile fun c => !isMark c with
  | [] => (text, none)
  | _ :: rest => (text.takeWhile fun c => !isMark c, some rest)

/-- The parts of a finite float without sign: it has a fraction, an exponent, or both. -/
def floatParts? (text : List Char) : Option FloatParts := do
  let (mantissa, exponent) := splitMark (fun c => c = 'e' || c = 'E') text
  let (whole, fraction) := splitMark (· = '.') mantissa
  if exponent.isNone ∧ fraction.isNone then none
  if !isDecimal whole then none
  let places ← match fraction with
    | none => some []
    | some digits => if isDigitRun Char.isDigit digits then some (runDigits digits) else none
  let power ← match exponent with
    | none => some 0
    | some digits =>
      let (negative, digits) := splitSign digits
      if isDigitRun Char.isDigit digits then
        let n : Int := natOfDigits (runDigits digits)
        some (if negative then -n else n)
      else none
  return ⟨runDigits whole ++ places, places.length, power⟩

/-- The least number that rounds to infinity as a float of 64 bits. -/
def floatBound : Nat := Nat.pow 2 1024 - Nat.pow 2 970

/-- Is the float finite once it is rounded to 64 bits? -/
def FloatParts.isFinite (p : FloatParts) : Bool :=
  let mantissa := natOfDigits p.digits
  let exponent := p.exponent - p.places
  let magnitude := exponent + p.digits.length
  if mantissa = 0 ∨ magnitude < 0 then true
  else if p.exponent > 400 + (p.digits.length : Int) then false
  else if 0 ≤ exponent then mantissa * Nat.pow 10 exponent.toNat < floatBound
  else mantissa < floatBound * Nat.pow 10 (-exponent).toNat

/-- The float that a text writes. -/
def float? (text : List Char) : Option Value :=
  let (_, magnitude) := splitSign text
  let literal := String.ofList text
  if magnitude = "inf".toList || magnitude = "nan".toList then some (.float literal)
  else (floatParts? magnitude).map fun parts =>
    if parts.isFinite then .float literal else .unreadable literal

/-- Does every underscore stand between two hexadecimal digits? `joins` is whether one may come next. -/
def underscoresJoin (joins : Bool) : List Char → Bool
  | [] => true
  | '_' :: rest => joins && rest.head?.any isHexDigit && underscoresJoin false rest
  | c :: rest => underscoresJoin (isHexDigit c) rest

/-- Does the text pass for an integer that is none? It is the mark of a base without digits, or it begins
with a decimal number and an underscore, goes on with anything but spaces and the marks of a float, and has
all its underscores between hexadecimal digits. -/
def passesForInteger (text : List Char) : Bool :=
  let (_, magnitude) := splitSign text
  let tail := magnitude.dropWhile Char.isDigit
  text ∈ ["0x".toList, "0o".toList, "0b".toList]
    || (magnitude.head? ≠ some '0' && tail.head? = some '_' && underscoresJoin false magnitude
      && !tail.any fun c => c = ' ' || c = '.' || c = 'e' || c = 'E')

/-- The number that a text writes. -/
def number? (text : List Char) : Option Value :=
  let literal := String.ofList text
  match integer? text with
  | some n => some (if fitsInteger n then .integer n else .unreadable literal)
  | none => if passesForInteger text then some (.unreadable literal) else float? text

/-- The value that an unquoted text writes. -/
def scalarOf? (text : List Char) : Option Value :=
  if text = "true".toList then some (.boolean true)
  else if text = "false".toList then some (.boolean false)
  else if isMoment text then some (.moment (String.ofList text))
  else number? text

/-- Does the character belong to an unquoted value? -/
def isScalarChar (c : Char) : Bool := !"=,[]\x7b\x7d \t#\r\n".toList.contains c

/-- Does an unquoted value go on behind blanks? It does so with anything that opens no string. -/
def goesOn (text : List Char) : Bool :=
  match skipBlanks text with
  | [] => false
  | c :: _ => isScalarChar c && c ≠ '"' && c ≠ '\''

/-- The unquoted text at the front. Blanks belong to it where it goes on behind them, as between a date and
a time of day. -/
def scalarText : List Char → List Char
  | [] => []
  | c :: rest =>
    if isScalarChar c then c :: scalarText rest
    else if (c = ' ' || c = '\t') && goesOn rest then c :: scalarText rest
    else []

/-- Reads an unquoted value. -/
def scalar (text : List Char) : Option (Read Value text) :=
  let taken := scalarText text
  if h : 0 < taken.length ∧ 0 < text.length then
    (scalarOf? taken).map fun value => ⟨value, text.drop taken.length, by rw [List.length_drop]; omega⟩
  else none

end LuaGlue.Toml
