import FencedCode.Double.Basic

/-!
# The fewest digits that read back

A finite number is written with the fewest decimal digits that determine it.  Its exact
value is a finite decimal, and the candidates with `n` digits are its two neighbours on the
grid of decimals with `n` digits: the first `n` digits of the exact value, and the decimal
one step above.  `shortest` takes the first `n` at which one of them rounds to the number,
and of two such candidates the nearer.
-/

namespace FencedCode.Double

/-- How a value half way between two candidates is written. -/
inductive Tie where
  /-- With the candidate whose last digit is even. -/
  | toEven
  /-- With the larger candidate. -/
  | up
  deriving DecidableEq

/-- A decimal `digits * 10 ^ exponent`. -/
structure Decimal where
  /-- The digits, read as one number. -/
  digits : Nat
  /-- The power of ten that they are scaled by. -/
  exponent : Int
  deriving DecidableEq

namespace Decimal

/-- Whether the decimal rounds to this many units. -/
def roundsTo (d : Decimal) (units : Nat) : Bool :=
  match ofDecimal false d.digits d.exponent with
  | finite _ size => size.units == units
  | _ => false

/-- The same value without zeros at the end of its digits; `fuel` bounds their number. -/
def trimZeros (d : Decimal) : Nat → Decimal
  | 0 => d
  | fuel + 1 =>
    if d.digits ≠ 0 ∧ d.digits % 10 = 0 then
      trimZeros ⟨d.digits / 10, d.exponent + 1⟩ fuel
    else
      d

end Decimal

/-- The exact value of a magnitude, as a decimal. -/
def Magnitude.exactDecimal (m : Magnitude) : Decimal :=
  ⟨m.units * Nat.pow 5 1074, -1074⟩

/-- The candidate that drops the last `dropped` digits of `exact` and still rounds to
`units`: the digits cut off, the decimal one step above, or the nearer of the two. -/
def candidate? (tie : Tie) (units : Nat) (exact : Decimal) (dropped : Nat) :
    Option Decimal :=
  let step := Nat.pow 10 dropped
  let below : Decimal := ⟨exact.digits / step, exact.exponent + dropped⟩
  let above : Decimal := ⟨exact.digits / step + 1, exact.exponent + dropped⟩
  let twice := 2 * (exact.digits % step)
  match below.roundsTo units, above.roundsTo units with
  | true, false => some below
  | false, true => some above
  | false, false => none
  | true, true =>
    if twice < step then some below
    else if twice > step then some above
    else match tie with
      | .toEven => if below.digits % 2 = 0 then some below else some above
      | .up => some above

/-- The candidate with the fewest digits: as many digits as possible are dropped. -/
def longestDrop (tie : Tie) (units : Nat) (exact : Decimal) : Nat → Decimal
  | 0 => exact
  | dropped + 1 =>
    match candidate? tie units exact dropped with
    | some d => d
    | none => longestDrop tie units exact dropped

/-- The decimal with the fewest digits that rounds to a magnitude, and of those with the
fewest the nearest. -/
def Magnitude.shortest (tie : Tie) (m : Magnitude) : Decimal :=
  let exact := m.exactDecimal
  let length := (Nat.toDigits 10 exact.digits).length
  (longestDrop tie m.units exact length).trimZeros length

end FencedCode.Double
