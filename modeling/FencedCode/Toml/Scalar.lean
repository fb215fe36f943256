import FencedCode.Text.Split
import FencedCode.Toml.Basic

/-!
# Numbers, dates and truth values of TOML

These values are written without quotes.  `scalarOf?` takes the whole text of one and gives
its value.  A text can look like a number and yet have no value, which only matters to those
who ask for it; dates and times are checked at once.
-/

namespace FencedCode.Toml

/-- Whether the underscores of a text without sign stand between digits.  Only the characters
next to an underscore count. -/
def underscoresFit (isDigit : Char → Bool) (text : List Char) : Bool :=
  let parts := Text.split '_' text
  (parts.dropLast.all fun part => part.getLast?.any isDigit) &&
    parts.tail.all fun part => part.head?.any isDigit

/-- The text without its underscores. -/
def withoutUnderscores (text : List Char) : List Char :=
  text.filter (· ≠ '_')

/-- The number that digits make in a base. -/
def digitsIn (base : Nat) (digits : List Char) : Nat :=
  digits.foldl (fun n c =>
    let d := if c.isDigit then c.toNat - '0'.toNat else c.toLower.toNat - 'a'.toNat + 10
    base * n + d) 0

/-- Whether a character is a digit of base sixteen. -/
def isHexDigit (c : Char) : Bool :=
  c.isDigit || ('a' ≤ c && c ≤ 'f') || ('A' ≤ c && c ≤ 'F')

/-! ## Integers -/

/-- The integer that digits make in a base, if they all belong to it and there are some. -/
def integerIn (base : Nat) (isDigit : Char → Bool) (negative : Bool) (digits : List Char) :
    Value :=
  if digits.isEmpty ∨ digits.any (fun c => !isDigit c) then
    .unreadable
  else
    let n := digitsIn base digits
    if negative then
      if n ≤ 1 <<< 127 then .integer (-n) else .unreadable
    else
      if n < 1 <<< 128 then .integer n else .unreadable

/-- An integer in another base than ten, behind its mark.  There may be no digits at all. -/
def basedInteger? (base : Nat) (isDigit : Char → Bool) (text : List Char) : Option Value :=
  if (withoutUnderscores text).all isDigit ∧ underscoresFit isDigit text then
    some (integerIn base isDigit false (withoutUnderscores text))
  else
    none

/-- Whether a text is a row of digits and underscores with a digit in it.  Zero may lead
other digits only where that is said. -/
def isDigitRow (zeroMayLead : Bool) (text : List Char) : Bool :=
  let count := (text.filter Char.isDigit).length
  (text.all fun c => c.isDigit || c = '_') &&
    (count = 1 || 1 < count && (zeroMayLead || text.head? ≠ some '0'))

/-- Whether a text without sign looks like a whole number.  Behind its first underscore it
may have any characters. -/
def looksWhole (text : List Char) : Bool :=
  isDigitRow false text ||
    text.head? ≠ some '0' && (text.dropWhile Char.isDigit).head? = some '_'

/-! ## Decimal numbers -/

/-- Whether a character begins a fraction or an exponent. -/
def isFloatMark (c : Char) : Bool :=
  c = '.' || c = 'e' || c = 'E'

/-- Whether a text without sign is a number with a fraction or an exponent. -/
def looksFloat (text : List Char) : Bool :=
  let isExponentMark (c : Char) : Bool := c = 'e' || c = 'E'
  let mantissa := text.takeWhile (!isExponentMark ·)
  let exponent := text.dropWhile (!isExponentMark ·)
  isDigitRow false (mantissa.takeWhile (· ≠ '.')) &&
    (match mantissa.dropWhile (· ≠ '.') with
      | [] => true
      | _ :: digits => isDigitRow true digits) &&
    (match exponent with
      | [] => true
      | _ :: rest => isDigitRow true (Double.splitSign rest).2)

/-- The decimal number of a text without sign and underscores. -/
def floatOf (negative : Bool) (text : List Char) : Value :=
  match Double.Decimal.ofChars? text with
  | none => .unreadable
  | some d =>
    let x := Double.ofDecimal negative d.digits d.exponent
    if x.isFinite then .float x else .unreadable

/-- A number in base ten. -/
def decimal? (text : List Char) : Option Value :=
  let (negative, size) := Double.splitSign text
  if (size.dropWhile Char.isDigit).any isFloatMark then
    if looksFloat size ∧ underscoresFit Char.isDigit size then
      some (floatOf negative (withoutUnderscores size))
    else
      none
  else if looksWhole size ∧ underscoresFit isHexDigit size then
    some (integerIn 10 Char.isDigit negative (withoutUnderscores size))
  else
    none

/-! ## Dates and times -/

/-- A number of so many digits in front of a text. -/
def takeNumber (count : Nat) (text : List Char) : Option (Nat × List Char) :=
  let digits := text.take count
  if digits.length = count ∧ digits.all Char.isDigit then
    some (digitsIn 10 digits, text.drop count)
  else
    none

/-- Takes a character off a text. -/
def takeChar (c : Char) : List Char → Option (List Char)
  | d :: rest => if d = c then some rest else none
  | [] => none

/-- The number of days of a month. -/
def daysIn (year month : Nat) : Nat :=
  if month = 2 then
    if year % 4 = 0 ∧ year % 100 ≠ 0 ∨ year % 400 = 0 then 29 else 28
  else if month = 4 ∨ month = 6 ∨ month = 9 ∨ month = 11 then 30
  else 31

/-- Takes a date off a text. -/
def takeDate (text : List Char) : Option (List Char) := do
  let (year, text) ← takeNumber 4 text
  let text ← takeChar '-' text
  let (month, text) ← takeNumber 2 text
  let text ← takeChar '-' text
  let (day, text) ← takeNumber 2 text
  if 1 ≤ month ∧ month ≤ 12 ∧ 1 ≤ day ∧ day ≤ daysIn year month then some text else none

/-- Takes the seconds of a time off a text, if there are any. -/
def takeSeconds (text : List Char) : Option (List Char) :=
  match text with
  | ':' :: rest => do
    let (second, rest) ← takeNumber 2 rest
    if second > 60 then none
    else
      match rest with
      | '.' :: digits =>
        if (digits.takeWhile Char.isDigit).isEmpty then none
        else some (digits.dropWhile Char.isDigit)
      | rest => some rest
  | rest => some rest

/-- Takes a time of day off a text. -/
def takeTime (text : List Char) : Option (List Char) := do
  let (hour, text) ← takeNumber 2 text
  let text ← takeChar ':' text
  let (minute, text) ← takeNumber 2 text
  if hour > 23 ∨ minute > 59 then none else takeSeconds text

/-- Whether a text is the offset of a time, or empty. -/
def isOffset : List Char → Bool
  | [] => true
  | ['Z'] => true
  | ['z'] => true
  | sign :: rest =>
    (sign = '+' || sign = '-') &&
      match (do
        let (hour, rest) ← takeNumber 2 rest
        let rest ← takeChar ':' rest
        let (minute, rest) ← takeNumber 2 rest
        return (hour, minute, rest)) with
      | some (hour, minute, []) => hour ≤ 23 && minute ≤ 59
      | _ => false

/-- Whether a text is a date, a time of day, or a date and a time with or without an
offset. -/
def isDatetime (text : List Char) : Bool :=
  match takeDate text with
  | some [] => true
  | some (mark :: rest) =>
    (mark = 'T' || mark = 't' || mark = ' ') &&
      match takeTime rest with
      | some offset => isOffset offset
      | none => false
  | none => takeTime text = some []

/-! ## All of them -/

/-- The value of a text without quotes. -/
def scalarOf? (text : List Char) : Option Value :=
  match text with
  | ['t', 'r', 'u', 'e'] => some (.boolean true)
  | ['f', 'a', 'l', 's', 'e'] => some (.boolean false)
  | '0' :: 'x' :: digits => basedInteger? 16 isHexDigit digits
  | '0' :: 'o' :: digits => basedInteger? 8 (fun c => '0' ≤ c && c ≤ '7') digits
  | '0' :: 'b' :: digits => basedInteger? 2 (fun c => c = '0' || c = '1') digits
  | text =>
    if isDatetime text then
      some (.datetime (String.ofList text))
    else
      match Double.splitSign text with
      | (negative, ['i', 'n', 'f']) => some (.float (.infinity negative))
      | (_, ['n', 'a', 'n']) => some (.float .nan)
      | _ => decimal? text

end FencedCode.Toml
