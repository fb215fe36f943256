import FencedCode.Double.Basic
import Mathlib.Algebra.Order.Ring.Nat
import Mathlib.Tactic.Lemma

/-!
# Rounding keeps the order

Rounding a quotient does not turn a larger value into a smaller one, and it depends on the
value of the quotient only.
-/

namespace FencedCode.Double

/-! ## The nearest multiple of a step -/

/-- The whole number of steps nearest to a number; of two equally near ones, the even
one. -/
def nearestSteps (num step : Nat) : Nat :=
  if 2 * (num % step) < step ∨ 2 * (num % step) = step ∧ num / step % 2 = 0 then num / step
  else num / step + 1

/-- The binary digits of a quotient beyond the 53 that a significand has. -/
def excess (num den : Nat) : Nat :=
  (num / den).log2 - 52

lemma roundUnits_eq (num den : Nat) :
    roundUnits num den =
      nearestSteps num (den * 2 ^ excess num den) * 2 ^ excess num den := by
  rw [roundUnits, nearestSteps, excess, Nat.shiftLeft_eq, Nat.shiftLeft_eq]

lemma div_le_nearestSteps (num step : Nat) : num / step ≤ nearestSteps num step := by
  rw [nearestSteps]
  split <;> omega

lemma nearestSteps_le (num step : Nat) : nearestSteps num step ≤ num / step + 1 := by
  rw [nearestSteps]
  split <;> omega

lemma nearestSteps_mono {num num' step : Nat} (h : num ≤ num') :
    nearestSteps num step ≤ nearestSteps num' step := by
  have hdiv : num / step ≤ num' / step := Nat.div_le_div_right h
  rcases Nat.lt_or_eq_of_le hdiv with hlt | heq
  · have hupper := nearestSteps_le num step
    have hlower := div_le_nearestSteps num' step
    omega
  · have hmod : num % step ≤ num' % step := by
      have h1 := Nat.div_add_mod num step
      have h2 := Nat.div_add_mod num' step
      rw [heq] at h1
      omega
    rw [nearestSteps, nearestSteps, heq]
    split
    · split <;> omega
    · exact Nat.le_of_eq (if_neg (by omega)).symm

/-! ## The size of a significand -/

lemma nearestSteps_le_significand (num den : Nat) :
    nearestSteps num (den * 2 ^ excess num den) ≤ 2 ^ 53 := by
  have hlt := div_step_lt num den
  have hle := nearestSteps_le num (den * 2 ^ excess num den)
  rw [Nat.shiftLeft_eq, Nat.shiftLeft_eq, Nat.one_mul] at hlt
  rw [excess] at hle ⊢
  omega

lemma significand_le_nearestSteps {num den : Nat} (h : excess num den ≠ 0) :
    2 ^ 52 ≤ nearestSteps num (den * 2 ^ excess num den) := by
  have hlog : (num / den).log2 = 52 + excess num den := by
    rw [excess] at h ⊢
    omega
  have hpos : num / den ≠ 0 := by
    intro hzero
    rw [hzero, Nat.log2_zero] at hlog
    omega
  have hself : 2 ^ (52 + excess num den) ≤ num / den := hlog ▸ Nat.log2_self_le hpos
  refine Nat.le_trans ?_ (div_le_nearestSteps _ _)
  rw [← Nat.div_div_eq_div_mul, Nat.le_div_iff_mul_le (Nat.two_pow_pos _), ← Nat.pow_add]
  exact hself

lemma excess_mono {num num' : Nat} (den : Nat) (h : num ≤ num') :
    excess num den ≤ excess num' den := by
  have hdiv : num / den ≤ num' / den := Nat.div_le_div_right h
  rw [excess, excess]
  by_cases hzero : num / den = 0
  · rw [hzero, Nat.log2_zero]
    omega
  · have hpos : num' / den ≠ 0 := by
      intro hzero'
      rw [hzero'] at hdiv
      exact hzero (Nat.le_zero.1 hdiv)
    have hlog : (num / den).log2 ≤ (num' / den).log2 :=
      (Nat.le_log2 hpos).2 (Nat.le_trans (Nat.log2_self_le hzero) hdiv)
    omega

/-- A multiple of the step is a whole number of steps. -/
lemma nearestSteps_mul (count : Nat) {step : Nat} (hstep : 0 < step) :
    nearestSteps (count * step) step = count := by
  rw [nearestSteps, Nat.mul_mod_left, Nat.mul_div_cancel _ hstep, if_pos (.inl hstep)]

/-! ## The main results -/

/-- Rounding keeps the order. -/
theorem roundUnits_mono {num num' : Nat} (den : Nat) (h : num ≤ num') :
    roundUnits num den ≤ roundUnits num' den := by
  rw [roundUnits_eq, roundUnits_eq]
  rcases Nat.lt_or_eq_of_le (excess_mono den h) with hlt | heq
  · -- A significand of one size more is at least as large as the largest one below it.
    have hupper := nearestSteps_le_significand num den
    have hlower : 2 ^ 52 ≤ nearestSteps num' (den * 2 ^ excess num' den) :=
      significand_le_nearestSteps (by omega)
    calc nearestSteps num (den * 2 ^ excess num den) * 2 ^ excess num den
        ≤ 2 ^ 53 * 2 ^ excess num den := Nat.mul_le_mul_right _ hupper
      _ = 2 ^ 52 * 2 ^ (excess num den + 1) := by rw [Nat.pow_succ]; omega
      _ ≤ 2 ^ 52 * 2 ^ excess num' den :=
          Nat.mul_le_mul_left _ (Nat.pow_le_pow_right (by decide) hlt)
      _ ≤ nearestSteps num' (den * 2 ^ excess num' den) * 2 ^ excess num' den :=
          Nat.mul_le_mul_right _ hlower
  · rw [heq]
    exact Nat.mul_le_mul_right _ (nearestSteps_mono h)

/-- Rounding depends on the value of a quotient only. -/
theorem roundUnits_mul (num den : Nat) (hden : 0 < den) :
    roundUnits (num * den) den = roundUnits num 1 := by
  have hexcess : excess (num * den) den = excess num 1 := by
    rw [excess, excess, Nat.mul_div_cancel _ hden, Nat.div_one]
  have hsteps : ∀ step, nearestSteps (num * den) (den * step) = nearestSteps num step := by
    intro step
    have hdiv : num * den / (den * step) = num / step := by
      rw [Nat.mul_comm, Nat.mul_div_mul_left _ _ hden]
    have hmod : num * den % (den * step) = den * (num % step) := by
      rw [Nat.mul_comm, Nat.mul_mod_mul_left]
    have hless : 2 * (den * (num % step)) < den * step ↔ 2 * (num % step) < step := by
      rw [Nat.mul_left_comm, Nat.mul_lt_mul_left hden]
    have hsame : 2 * (den * (num % step)) = den * step ↔ 2 * (num % step) = step := by
      rw [Nat.mul_left_comm, Nat.mul_right_inj (by omega)]
    simp only [nearestSteps, hdiv, hmod, hless, hsame]
  rw [roundUnits_eq, roundUnits_eq, hexcess, hsteps, Nat.one_mul]

lemma excess_le {num bits : Nat} (h : num < 2 ^ (53 + bits)) : excess num 1 ≤ bits := by
  rw [excess, Nat.div_one]
  by_cases hzero : num = 0
  · rw [hzero, Nat.log2_zero]
    omega
  · have hlog := (Nat.log2_lt hzero).2 h
    omega

/-- Rounding leaves a representable number as it is. -/
theorem roundUnits_of_representable {units : Nat} (h : Representable units) :
    roundUnits units 1 = units := by
  obtain ⟨significand, shift, hle, rfl⟩ := h
  rw [Nat.shiftLeft_eq] at hle ⊢
  have hdvd : 2 ^ excess (significand * 2 ^ shift) 1 ∣ significand * 2 ^ shift := by
    rcases Nat.lt_or_eq_of_le hle with hlt | heq
    · have hexcess : excess (significand * 2 ^ shift) 1 ≤ shift := by
        refine excess_le ?_
        rw [Nat.pow_add]
        exact Nat.mul_lt_mul_of_pos_right (by omega) (Nat.two_pow_pos shift)
      exact Nat.dvd_mul_left_of_dvd (Nat.pow_dvd_pow 2 hexcess) significand
    · -- The largest significand is itself a power of two.
      rw [heq, Nat.one_mul, ← Nat.pow_add]
      refine Nat.pow_dvd_pow 2 ?_
      have hexcess : excess (2 ^ (53 + shift)) 1 ≤ shift + 1 :=
        excess_le (Nat.pow_lt_pow_right (by decide) (by omega))
      omega
  obtain ⟨count, hcount⟩ := hdvd
  rw [roundUnits_eq, Nat.one_mul]
  generalize excess (significand * 2 ^ shift) 1 = e at hcount
  rw [hcount, Nat.mul_comm (2 ^ e) count, nearestSteps_mul count (Nat.two_pow_pos e)]

end FencedCode.Double
