import FencedCode.Double.Shortest
import FencedCode.Proofs.Double.Rounding
import Mathlib.Algebra.Order.Field.Rat
import Mathlib.Tactic.Lemma
import Mathlib.Tactic.Positivity
import Mathlib.Tactic.Ring
import Mathlib.Tactic.SplitIfs

/-!
# The fewest digits that read back

The decimal with the fewest digits is the exact value or one that rounds to the number, with
zeros at its end dropped.  So it has a digit other than zero, and no decimal below it rounds
to a larger number.
-/

namespace FencedCode.Double

namespace Decimal

variable {d : Decimal} {units : Nat}

/-! ## The value of a decimal -/

/-- The number that a decimal stands for. -/
def value (d : Decimal) : ℚ :=
  d.digits * (10 : ℚ) ^ d.exponent

/-- The numerator of the value, written without a negative power of ten. -/
def numerator (d : Decimal) : Nat :=
  d.digits * 10 ^ d.exponent.toNat

/-- The denominator of the value. -/
def denominator (d : Decimal) : Nat :=
  10 ^ (-d.exponent).toNat

lemma denominator_pos (d : Decimal) : 0 < d.denominator :=
  Nat.pow_pos (by decide)

lemma value_eq_div (d : Decimal) : d.value = d.numerator / d.denominator := by
  rw [value, numerator, denominator]
  rcases le_total 0 d.exponent with h | h
  · obtain ⟨e, he⟩ := Int.eq_ofNat_of_zero_le h
    simp [he]
  · obtain ⟨e, he⟩ := Int.eq_ofNat_of_zero_le (Int.neg_nonneg_of_nonpos h)
    have hneg : d.exponent = -(e : Int) := by omega
    simp [hneg, div_eq_mul_inv]

/-! ## Rounding a decimal -/

lemma roundUnits_of_ofDecimal {num den : Nat}
    (hvalue : ofDecimal false d.digits d.exponent = ofUnits false num den)
    (h : d.roundsTo units = true) : roundUnits num den = units := by
  rw [roundsTo, hvalue, ofUnits] at h
  split_ifs at h
  exact eq_of_beq h

/-- The units that a decimal rounds to are those nearest to its value. -/
lemma roundUnits_of_roundsTo (hunits : units ≠ 0) (h : d.roundsTo units = true) :
    d.digits ≠ 0 ∧ roundUnits (d.numerator * unitsPerOne) d.denominator = units := by
  have hnone : roundUnits 0 1 ≠ units := by
    have hzero : roundUnits 0 1 = 0 := roundUnits_of_representable ⟨0, 0, Nat.zero_le _, rfl⟩
    rw [hzero]
    exact hunits.symm
  by_cases hzero : d.digits = 0
  · exact absurd (roundUnits_of_ofDecimal (by rw [ofDecimal, if_pos hzero]) h) hnone
  by_cases hhuge : d.exponent > 400
  · rw [roundsTo, ofDecimal, if_neg hzero, if_pos hhuge] at h
    simp at h
  by_cases hwhole : d.exponent ≥ 0
  · have hden : (-d.exponent).toNat = 0 := by omega
    refine ⟨hzero, roundUnits_of_ofDecimal ?_ h⟩
    rw [ofDecimal, if_neg hzero, if_neg hhuge, if_pos hwhole, numerator, denominator, hden]
    rfl
  by_cases htiny : (d.digits.log2 : Int) / 3 + d.exponent < -400
  · refine absurd (roundUnits_of_ofDecimal ?_ h) hnone
    rw [ofDecimal, if_neg hzero, if_neg hhuge, if_neg hwhole, if_pos htiny]
  · have hnum : d.exponent.toNat = 0 := by omega
    refine ⟨hzero, roundUnits_of_ofDecimal ?_ h⟩
    rw [ofDecimal, if_neg hzero, if_neg hhuge, if_neg hwhole, if_neg htiny, numerator,
      denominator, hnum, Nat.pow_zero, Nat.mul_one]
    rfl

/-! ## Zeros at the end -/

/-- Dropping zeros at the end of the digits moves them into the exponent. -/
lemma trimZeros_spec (d : Decimal) (fuel : Nat) :
    (d.trimZeros fuel).value = d.value ∧ (d.digits ≠ 0 → (d.trimZeros fuel).digits ≠ 0) := by
  induction fuel generalizing d with
  | zero => exact ⟨rfl, id⟩
  | succ fuel ih =>
    rw [trimZeros]
    split
    · rename_i hzeros
      obtain ⟨hvalue, hdigits⟩ := ih ⟨d.digits / 10, d.exponent + 1⟩
      have hten : d.digits / 10 * 10 = d.digits := by omega
      have hcast : ((d.digits / 10 : Nat) : ℚ) * 10 = d.digits := by exact_mod_cast hten
      refine ⟨?_, fun _ => hdigits (by dsimp only; omega)⟩
      rw [hvalue, value, value, zpow_add_one₀ (by norm_num), ← hcast]
      ring
    · exact ⟨rfl, id⟩

end Decimal

/-! ## The candidates -/

lemma roundsTo_of_candidate? {tie : Tie} {units dropped : Nat} {exact d : Decimal}
    (h : candidate? tie units exact dropped = some d) : d.roundsTo units = true := by
  unfold candidate? at h
  dsimp only at h
  split at h
  · simp_all
  · simp_all
  · simp_all
  · -- Both neighbours round to the number, so it does not matter which one is taken.
    cases tie <;> split_ifs at h <;> simp_all

lemma longestDrop_cases (tie : Tie) (units : Nat) (exact : Decimal) (dropped : Nat) :
    longestDrop tie units exact dropped = exact ∨
      (longestDrop tie units exact dropped).roundsTo units = true := by
  induction dropped with
  | zero => exact .inl rfl
  | succ dropped ih =>
    rw [longestDrop]
    split
    · rename_i d h
      exact .inr (roundsTo_of_candidate? h)
    · exact ih

/-! ## Nothing below rounds to more -/

lemma roundUnits_le_of_roundsTo {d : Decimal} {units n : Nat} (hunits : units ≠ 0)
    (h : d.roundsTo units = true) (hn : (n : ℚ) ≤ d.value) :
    roundUnits (n * unitsPerOne) 1 ≤ units := by
  have hden := d.denominator_pos
  have hle : n * d.denominator ≤ d.numerator := by
    rw [d.value_eq_div, le_div_iff₀ (by exact_mod_cast hden)] at hn
    exact_mod_cast hn
  calc roundUnits (n * unitsPerOne) 1
      = roundUnits (n * unitsPerOne * d.denominator) d.denominator :=
        (roundUnits_mul _ _ hden).symm
    _ ≤ roundUnits (d.numerator * unitsPerOne) d.denominator := by
        refine roundUnits_mono _ ?_
        rw [Nat.mul_right_comm]
        exact Nat.mul_le_mul_right _ hle
    _ = units := (Decimal.roundUnits_of_roundsTo hunits h).2

namespace Magnitude

/-- A power of two in the denominator is one of five in the digits. -/
lemma mul_zpow_neg (x n : Nat) :
    ((x * Nat.pow 5 n : Nat) : ℚ) * (10 : ℚ) ^ (-(n : Int)) * (1 <<< n : Nat) = x := by
  have hten : (10 : ℚ) ^ n = 5 ^ n * 2 ^ n := by
    rw [← mul_pow]
    norm_num only
  rw [Nat.pow_eq, Nat.one_shiftLeft, zpow_neg, zpow_natCast]
  push_cast
  rw [mul_right_comm, mul_assoc (x : ℚ), ← hten]
  exact mul_inv_cancel_right₀ (by positivity) _

lemma value_exactDecimal (m : Magnitude) : m.exactDecimal.value * unitsPerOne = m.units := by
  rw [Decimal.value, exactDecimal, unitsPerOne]
  dsimp only
  generalize hn : (1074 : Nat) = n
  have hneg : (-1074 : Int) = -(n : Int) := by omega
  rw [hneg]
  exact mul_zpow_neg m.units n

lemma digits_exactDecimal_ne_zero {m : Magnitude} (hm : m.units ≠ 0) :
    m.exactDecimal.digits ≠ 0 := by
  rw [exactDecimal]
  dsimp only
  generalize (1074 : Nat) = n
  exact Nat.mul_ne_zero hm (Nat.pow_pos (by decide)).ne'

lemma roundUnits_le_of_le_exactDecimal (m : Magnitude) {n : Nat}
    (hn : (n : ℚ) ≤ m.exactDecimal.value) : roundUnits (n * unitsPerOne) 1 ≤ m.units := by
  have hle : n * unitsPerOne ≤ m.units := by
    have h := mul_le_mul_of_nonneg_right hn (Nat.cast_nonneg (α := ℚ) unitsPerOne)
    rw [m.value_exactDecimal] at h
    exact_mod_cast h
  calc roundUnits (n * unitsPerOne) 1
      ≤ roundUnits m.units 1 := roundUnits_mono 1 hle
    _ = m.units := roundUnits_of_representable m.representable

/-- The decimal with the fewest digits has a digit other than zero, and no whole number up
to it rounds to more than the number. -/
theorem shortest_spec (tie : Tie) {m : Magnitude} (hm : m.units ≠ 0) :
    (m.shortest tie).digits ≠ 0 ∧
      ∀ n : Nat, (n : ℚ) ≤ (m.shortest tie).value →
        roundUnits (n * unitsPerOne) 1 ≤ m.units := by
  rw [shortest]
  generalize (Nat.toDigits 10 m.exactDecimal.digits).length = length
  generalize hd : longestDrop tie m.units m.exactDecimal length = d
  -- Zeros at the end do not count, so only the candidate that was taken matters.
  obtain ⟨hvalue, hdigits⟩ := d.trimZeros_spec length
  rcases hd ▸ longestDrop_cases tie m.units m.exactDecimal length with hexact | hrounds
  · refine ⟨hdigits ?_, fun n hn => m.roundUnits_le_of_le_exactDecimal ?_⟩
    · rw [hexact]
      exact digits_exactDecimal_ne_zero hm
    · rwa [← hexact, ← hvalue]
  · refine ⟨hdigits (Decimal.roundUnits_of_roundsTo hm hrounds).1, fun n hn => ?_⟩
    rw [hvalue] at hn
    exact roundUnits_le_of_roundsTo hm hrounds hn

end Magnitude

end FencedCode.Double
