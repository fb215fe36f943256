import FencedCode.Json.Error

/-!
# Reading numbers

The digits of a number are gathered in a significand of 64 bits; digits that no longer fit
are dropped, and only their count is kept.  The significand is rounded to double precision
and then multiplied or divided by a power of ten, which rounds again.  The result is the
nearest number whenever the significand has at most 53 binary digits and the power of ten
is at most `10 ^ 22`; otherwise it can be one of the numbers next to it.
-/

namespace FencedCode

namespace Double

/-- A power of ten in double precision. -/
def tenTo (n : Nat) : Double :=
  ofDecimal false 1 n

/-- A number divided by `10 ^ places`, in steps of at most `10 ^ 308`.  After two full steps
nothing is left of a significand. -/
def shiftDown (x : Double) (places : Nat) : Double :=
  if places ≤ 308 then x.div (tenTo places)
  else if places ≤ 616 then (x.div (tenTo 308)).div (tenTo (places - 308))
  else ofUnits false 0 1

/-- A significand multiplied by a power of ten, if the result is finite. -/
def scaled? (significand : Nat) (exponent : Int) : Option Double :=
  if significand = 0 then
    some (ofNat 0)
  else if exponent < 0 then
    some ((ofNat significand).shiftDown (-exponent).toNat)
  else if exponent > 308 then
    none
  else
    let x := (ofNat significand).mul (tenTo exponent.toNat)
    if x.isFinite then some x else none

end Double

namespace Json

/-- Gathers digits in a significand as long as it fits 64 bits, and gives the digits left. -/
def gather (significand : Nat) : List Char → Nat × List Char
  | [] => (significand, [])
  | c :: rest =>
    let next := 10 * significand + Double.digitValue c
    if next < 1 <<< 64 then gather next rest else (significand, c :: rest)

/-- A non-empty row of digits and what follows it. -/
def readDigits (text : List Char) : Except Error (List Char × List Char) :=
  match text.takeWhile Char.isDigit, text.dropWhile Char.isDigit with
  | [], [] => .error .truncated
  | [], _ => .error .malformed
  | digits, rest => .ok (digits, rest)

/-- The whole part of a number, which starts with a zero only if that is all of it. -/
def readWhole (text : List Char) : Except Error (List Char × List Char) :=
  match readDigits text with
  | .ok ('0' :: _ :: _, _) => .error .malformed
  | result => result

/-- The digits behind the point; there are none without a point. -/
def readFraction : List Char → Except Error (List Char × List Char)
  | '.' :: rest => readDigits rest
  | rest => .ok ([], rest)

/-- The exponent; there is none without its mark. -/
def readExponent : List Char → Except Error (Option Int × List Char)
  | mark :: rest =>
    if mark = 'e' ∨ mark = 'E' then
      let (negative, rest) := Double.splitSign rest
      match readDigits rest with
      | .error e => .error e
      | .ok (digits, rest) =>
        let size : Int := Double.digitsValue digits
        .ok (some (if negative then -size else size), rest)
    else
      .ok (none, mark :: rest)
  | [] => .ok (none, [])

/-- The integer of a sign and a size, in double precision where 64 bits do not hold it. -/
def integerOf (negative : Bool) (size : Nat) : JsonNumber :=
  if negative then
    if size = 0 ∨ size > 1 <<< 63 then .float (Double.ofNat size).negate else .integer (-size)
  else
    .integer size

/-- The number of a sign, the digits of its parts and its exponent. -/
def numberOf (negative : Bool) (whole fraction : List Char) (exponent : Option Int) :
    Except Error JsonNumber :=
  match gather 0 whole, fraction, exponent with
  | (size, []), [], none => .ok (integerOf negative size)
  | (significand, dropped), fraction, exponent =>
    let (significand, unused) := gather significand fraction
    let places : Int := dropped.length - (fraction.length - unused.length : Nat)
    match Double.scaled? significand (places + exponent.getD 0) with
    | none => .error .malformed
    | some x => .ok (.float (if negative then x.negate else x))

/-- A number without its sign, and what follows it. -/
def readNumber (negative : Bool) (text : List Char) :
    Except Error (JsonNumber × List Char) := do
  let (whole, rest) ← readWhole text
  let (fraction, rest) ← readFraction rest
  let (exponent, rest) ← readExponent rest
  let n ← numberOf negative whole fraction exponent
  return (n, rest)

end Json

end FencedCode
