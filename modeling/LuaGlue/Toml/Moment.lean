import LuaGlue.Toml.Layout

/-!
Dates and times of TOML.

    1979-05-27T07:32:00.5-07:00     a date and a time of day, perhaps with an offset
    1979-05-27                      a date
    07:32                           a time of day; seconds are optional, and so is their fraction

`isMoment` is a check alone: nothing computes with moments.
-/

namespace LuaGlue.Toml

/-- The number that decimal digits write. -/
def natOfDigits (digits : List Char) : Nat :=
  digits.foldl (fun n c => 10 * n + (c.toNat - 48)) 0

/-- The number that so many digits at the front of a text write, and the text after them. -/
def fixedDigits? (count : Nat) (text : List Char) : Option (Nat × List Char) :=
  let digits := text.take count
  if digits.length = count ∧ digits.all Char.isDigit then some (natOfDigits digits, text.drop count)
  else none

/-- The text after this character. -/
def after? (c : Char) : List Char → Option (List Char)
  | d :: rest => if d = c then some rest else none
  | [] => none

/-- The number of days in a month. -/
def daysInMonth (year month : Nat) : Nat :=
  if month = 2 then
    if year % 4 = 0 ∧ (year % 100 ≠ 0 ∨ year % 400 = 0) then 29 else 28
  else if month ∈ [4, 6, 9, 11] then 30
  else 31

/-- The text after a date. -/
def date? (text : List Char) : Option (List Char) := do
  let (year, text) ← fixedDigits? 4 text
  let (month, text) ← fixedDigits? 2 (← after? '-' text)
  let (day, text) ← fixedDigits? 2 (← after? '-' text)
  if 1 ≤ month ∧ month ≤ 12 ∧ 1 ≤ day ∧ day ≤ daysInMonth year month then some text else none

/-- The text after the fraction of a second, if there is one. -/
def fraction? (text : List Char) : Option (List Char) :=
  match text with
  | '.' :: rest => if rest.takeWhile Char.isDigit = [] then none else some (rest.dropWhile Char.isDigit)
  | _ => some text

/-- The text after the seconds, if there are any. The last second of a day may be a leap second. -/
def seconds? (text : List Char) : Option (List Char) :=
  match text with
  | ':' :: rest => do
    let (second, text) ← fixedDigits? 2 rest
    if second ≤ 60 then fraction? text else none
  | _ => some text

/-- The text after a time of day. -/
def timeOfDay? (text : List Char) : Option (List Char) := do
  let (hour, text) ← fixedDigits? 2 text
  let (minute, text) ← fixedDigits? 2 (← after? ':' text)
  if hour ≤ 23 ∧ minute ≤ 59 then seconds? text else none

/-- Is the text an offset from universal time, or nothing? -/
def isOffset (text : List Char) : Bool :=
  match text with
  | [] => true
  | c :: rest =>
    if c = 'Z' ∨ c = 'z' then rest.isEmpty
    else if c = '+' ∨ c = '-' then
      (do
        let (hour, text) ← fixedDigits? 2 rest
        let (minute, text) ← fixedDigits? 2 (← after? ':' text)
        return hour ≤ 23 && minute ≤ 59 && text.isEmpty) |>.getD false
    else false

/-- Is the text a date, a time of day, or both? -/
def isMoment (text : List Char) : Bool :=
  match date? text with
  | some [] => true
  | some (c :: rest) =>
    (c = 'T' || c = 't' || c = ' ') && ((timeOfDay? rest).map isOffset).getD false
  | none => timeOfDay? text = some []

end LuaGlue.Toml
