import FencedCode.Double.Shortest

/-!
# Numbers as text

Two spellings of a double are in use.  `Double.plain` writes it positionally, never with an
exponent, and spells the numbers that are not finite.  `Double.scientific` writes a finite
number as data files do: positionally from `0.00001` up to sixteen digits before the point,
always with a point, and with an exponent outside that range.  `Double.ofText?` reads a
decimal number and rounds it once.
-/

namespace FencedCode.Double

/-- The digits of a natural number in base ten. -/
def digitChars (n : Nat) : List Char :=
  Nat.toDigits 10 n

/-- This many zeros. -/
def zeros (n : Nat) : List Char :=
  List.replicate n '0'

/-- The digits of a decimal written positionally; the fraction part is empty for a whole
number. -/
def Decimal.wholeAndFraction (d : Decimal) : List Char × List Char :=
  let digits := digitChars d.digits
  if d.exponent ≥ 0 then
    (digits ++ zeros d.exponent.toNat, [])
  else
    let places := (-d.exponent).toNat
    if places < digits.length then
      (digits.take (digits.length - places), digits.drop (digits.length - places))
    else
      (['0'], zeros (places - digits.length) ++ digits)

/-- The minus sign of a negative number. -/
def signChars (negative : Bool) : List Char :=
  if negative then ['-'] else []

/-- The positional spelling of a magnitude, without a point if it is a whole number. -/
def Magnitude.plain (m : Magnitude) : List Char :=
  if m.units = 0 then
    ['0']
  else
    match (m.shortest .up).wholeAndFraction with
    | (whole, []) => whole
    | (whole, fraction) => whole ++ '.' :: fraction

/-- The positional spelling of a number. -/
def plain : Double → String
  | nan => "NaN"
  | infinity negative => if negative then "-inf" else "inf"
  | finite negative size => String.ofList (signChars negative ++ size.plain)

/-- The spelling of an exponent, with its sign. -/
def exponentChars (e : Int) : List Char :=
  'e' :: (if e < 0 then '-' else '+') :: digitChars e.natAbs

/-- The spelling of a magnitude in data files. -/
def Magnitude.scientific (m : Magnitude) : List Char :=
  if m.units = 0 then
    ['0', '.', '0']
  else
    let d := m.shortest .toEven
    let digits := digitChars d.digits
    let leading := d.exponent + digits.length - 1
    if -5 ≤ leading ∧ leading < 16 then
      match d.wholeAndFraction with
      | (whole, []) => whole ++ ['.', '0']
      | (whole, fraction) => whole ++ '.' :: fraction
    else
      match digits with
      | first :: [] => first :: exponentChars leading
      | first :: rest => first :: '.' :: rest ++ exponentChars leading
      | [] => exponentChars leading

/-- The spelling of a finite number in data files; there is none for the others. -/
def scientific? : Double → Option (List Char)
  | finite negative size => some (signChars negative ++ size.scientific)
  | _ => none

/-! ## Reading -/

/-- The value of a digit. -/
def digitValue (c : Char) : Nat :=
  c.toNat - '0'.toNat

/-- The number that a row of digits spells. -/
def digitsValue (digits : List Char) : Nat :=
  digits.foldl (fun n c => 10 * n + digitValue c) 0

/-- A sign at the start of a text, and what follows it. -/
def splitSign : List Char → Bool × List Char
  | '-' :: rest => (true, rest)
  | '+' :: rest => (false, rest)
  | rest => (false, rest)

/-- An exponent after its mark: a sign, digits, and nothing else. -/
def exponentOf? (text : List Char) : Option Int :=
  match splitSign text with
  | (negative, digits) =>
    if digits.isEmpty ∨ digits.any (fun c => !c.isDigit) then none
    else if negative then some (-(digitsValue digits : Int))
    else some (digitsValue digits)

/-- The decimal that a text without sign spells: digits with at most one point among them,
and perhaps an exponent. -/
def Decimal.ofChars? (text : List Char) : Option Decimal :=
  let whole := text.takeWhile Char.isDigit
  let afterWhole := text.dropWhile Char.isDigit
  let (fraction, afterFraction) := match afterWhole with
    | '.' :: rest => (rest.takeWhile Char.isDigit, rest.dropWhile Char.isDigit)
    | rest => ([], rest)
  if whole.isEmpty ∧ fraction.isEmpty then
    none
  else
    let digits := digitsValue (whole ++ fraction)
    match afterFraction with
    | [] => some ⟨digits, -fraction.length⟩
    | mark :: rest =>
      if mark = 'e' ∨ mark = 'E' then
        (exponentOf? rest).map fun e => ⟨digits, e - fraction.length⟩
      else
        none

/-- The number that a text spells: a decimal, or one of the names `NaN`, `inf` and
`infinity` in any case. -/
def ofText? (text : String) : Option Double :=
  let (negative, rest) := splitSign text.toList
  match String.ofList (rest.map Char.toLower) with
  | "nan" => some nan
  | "inf" => some (infinity negative)
  | "infinity" => some (infinity negative)
  | _ => (Decimal.ofChars? rest).map fun d => ofDecimal negative d.digits d.exponent

end FencedCode.Double
