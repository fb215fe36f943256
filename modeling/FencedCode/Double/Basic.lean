/-!
# Double-precision numbers

Property values and data files hold numbers of double precision.  This file sets them up as
a type to reason about: a finite number is a sign and a whole number of *units*, the unit
being `2 ^ (-1074)`, the smallest positive number there is.  All arithmetic is exact
arithmetic on natural numbers followed by one rounding, `roundUnits`, which goes to the
nearest representable number and, between two of them, to the one with the even
significand.
-/

namespace FencedCode

namespace Double

/-- The number of units in one. -/
def unitsPerOne : Nat := 1 <<< 1074

/-- A finite number stays below this many units. -/
def unitLimit : Nat := 1 <<< 2098

/-- A whole number of units is representable when its significand has at most 53 binary
digits. -/
def Representable (units : Nat) : Prop :=
  ∃ significand shift, significand ≤ 1 <<< 53 ∧ units = significand <<< shift

/-- The size of a finite number: a representable number of units below the limit. -/
structure Magnitude where
  /-- The size, counted in units. -/
  units : Nat
  /-- The significand has at most 53 binary digits. -/
  representable : Representable units
  /-- The size is below the limit. -/
  bounded : units < unitLimit
  deriving DecidableEq

end Double

/-- A double-precision number.  Zero keeps its sign. -/
inductive Double where
  /-- The result of an operation that has none. -/
  | nan
  /-- A number too large to be finite. -/
  | infinity (negative : Bool)
  /-- A finite number. -/
  | finite (negative : Bool) (size : Double.Magnitude)
  deriving DecidableEq

namespace Double

/-- Whether the number is neither infinite nor missing. -/
def isFinite : Double → Bool
  | finite _ _ => true
  | _ => false

/-- The number with the other sign. -/
def negate : Double → Double
  | nan => nan
  | infinity negative => infinity (!negative)
  | finite negative size => finite (!negative) size

/-- Numerical equality: a missing number equals nothing, and both zeros are equal. -/
def equals : Double → Double → Bool
  | infinity a, infinity b => a == b
  | finite a x, finite b y => x.units == y.units && (a == b || x.units == 0)
  | _, _ => false

/-! ## Rounding -/

/-- The representable number of units nearest to `num / den`; of two equally near ones, the
one with the even significand. -/
def roundUnits (num den : Nat) : Nat :=
  let shift := (num / den).log2 - 52
  let step := den <<< shift
  let below := num / step
  let twice := 2 * (num % step)
  let nearest := if twice < step ∨ twice = step ∧ below % 2 = 0 then below else below + 1
  nearest <<< shift

theorem div_step_lt (num den : Nat) :
    num / (den <<< ((num / den).log2 - 52)) < 1 <<< 53 := by
  rw [Nat.shiftLeft_eq, Nat.shiftLeft_eq, Nat.one_mul, ← Nat.div_div_eq_div_mul]
  refine Nat.div_lt_of_lt_mul ?_
  refine Nat.lt_of_lt_of_le (Nat.lt_log2_self (n := num / den)) ?_
  rw [← Nat.pow_add]
  exact Nat.pow_le_pow_right (by decide) (by omega)

theorem representable_roundUnits (num den : Nat) : Representable (roundUnits num den) := by
  have h := div_step_lt num den
  refine ⟨_, _, ?_, rfl⟩
  split <;> omega

/-- The number of the given sign nearest to `num / den` units. -/
def ofUnits (negative : Bool) (num den : Nat) : Double :=
  if h : roundUnits num den < unitLimit then
    finite negative ⟨roundUnits num den, representable_roundUnits num den, h⟩
  else
    infinity negative

/-- The number nearest to a natural number. -/
def ofNat (n : Nat) : Double :=
  ofUnits false (n * unitsPerOne) 1

/-- The number nearest to `digits * 10 ^ exponent`.  Outside the range of exponents in
which a number can be neither zero nor infinite the answer is given at once. -/
def ofDecimal (negative : Bool) (digits : Nat) (exponent : Int) : Double :=
  if digits = 0 then
    ofUnits negative 0 1
  else if exponent > 400 then
    infinity negative
  else if exponent ≥ 0 then
    ofUnits negative (digits * Nat.pow 10 exponent.toNat * unitsPerOne) 1
  else if (digits.log2 : Int) / 3 + exponent < -400 then
    ofUnits negative 0 1
  else
    ofUnits negative (digits * unitsPerOne) (Nat.pow 10 (-exponent).toNat)

/-! ## Arithmetic -/

/-- The exact product, rounded once. -/
def mul : Double → Double → Double
  | finite a x, finite b y => ofUnits (a != b) (x.units * y.units) unitsPerOne
  | infinity a, finite b y => if y.units = 0 then nan else infinity (a != b)
  | finite a x, infinity b => if x.units = 0 then nan else infinity (a != b)
  | infinity a, infinity b => infinity (a != b)
  | _, _ => nan

/-- The exact quotient, rounded once. -/
def div : Double → Double → Double
  | finite a x, finite b y =>
    if y.units = 0 then
      if x.units = 0 then nan else infinity (a != b)
    else
      ofUnits (a != b) (x.units * unitsPerOne) y.units
  | infinity a, finite b _ => infinity (a != b)
  | finite a _, infinity b => ofUnits (a != b) 0 1
  | _, _ => nan

end Double

end FencedCode
