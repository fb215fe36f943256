import FencedCode.Proofs.Json.Floats

/-!
# Floating-point numbers stay in range

The reader rounds a significand to double precision and rounds once more when it multiplies
by a power of ten.  The product of two rounded numbers may lie above the number that was
written, but never so far that it is infinite: whatever finite number is written, a number
is read.
-/

namespace FencedCode.Double

/-! ## Products -/

/-- The units of the product of a significand and a power of ten, as the reader forms it. -/
def productUnits (significand exponent : Nat) : Nat :=
  roundUnits (roundUnits (significand * unitsPerOne) 1 *
    roundUnits (10 ^ exponent * unitsPerOne) 1) unitsPerOne

/-- The greatest magnitude. -/
def greatest : Magnitude :=
  ⟨(2 ^ 53 - 1) <<< 2045, ⟨2 ^ 53 - 1, 2045, by decide, rfl⟩, by decide +kernel⟩

/-- The greatest number of units that rounds to less than the greatest magnitude. -/
def belowGreatest : Nat :=
  (2 ^ 54 - 3) <<< 2044

lemma productUnits_mono {significand significand' exponent exponent' : Nat}
    (hsignificand : significand ≤ significand') (hexponent : exponent ≤ exponent') :
    productUnits significand exponent ≤ productUnits significand' exponent' := by
  have hpow : 10 ^ exponent ≤ 10 ^ exponent' := Nat.pow_le_pow_right (by decide) hexponent
  exact roundUnits_mono _ (Nat.mul_le_mul
    (roundUnits_mono 1 (Nat.mul_le_mul_right _ hsignificand))
    (roundUnits_mono 1 (Nat.mul_le_mul_right _ hpow)))

lemma unitsPerOne_pos : 0 < unitsPerOne := by
  rw [unitsPerOne, Nat.one_shiftLeft]
  exact Nat.two_pow_pos 1074

/-- The greatest magnitude as a number, and what lies around it: the limit, the smallest
number of its size, the smallest number that rounds to it and the power of ten beyond. -/
lemma greatest_bounds :
    greatest.units = 2 ^ 2045 * (2 ^ 53 - 1) ∧ unitLimit = 2 ^ 2045 * 2 ^ 53 ∧
      2 ^ 2097 ≤ greatest.units ∧ roundUnits (belowGreatest + 1) 1 = greatest.units ∧
      belowGreatest < 10 ^ 309 * unitsPerOne := by
  decide +kernel

/-- A power of ten that is no factor of a finite number. -/
lemma exponent_le_of_le_belowGreatest {significand exponent : Nat} (hpos : significand ≠ 0)
    (h : significand * 10 ^ exponent * unitsPerOne ≤ belowGreatest) : exponent ≤ 308 := by
  by_contra hlarge
  have hle : 309 ≤ exponent := by omega
  obtain ⟨-, -, -, -, hlimit⟩ := greatest_bounds
  have hpow : 10 ^ 309 ≤ significand * 10 ^ exponent :=
    (pow_le_pow_right₀ (by decide) hle).trans
      (Nat.le_mul_of_pos_left _ (Nat.pos_of_ne_zero hpos))
  exact Nat.not_le.2 hlimit (Nat.le_trans (Nat.mul_le_mul_right unitsPerOne hpow) h)

/-- What rounds to less than the greatest magnitude. -/
lemma le_belowGreatest {units : Nat} (h : roundUnits units 1 < greatest.units) :
    units ≤ belowGreatest := by
  by_contra hlarge
  obtain ⟨-, -, -, hgreatest, -⟩ := greatest_bounds
  have hmono := roundUnits_mono 1 (Nat.lt_of_not_le hlarge)
  rw [Nat.succ_eq_add_one, hgreatest] at hmono
  omega

lemma eq_of_units_eq {m m' : Magnitude} (h : m.units = m'.units) : m = m' := by
  obtain ⟨units, hrepresentable, hbounded⟩ := m
  obtain ⟨units', hrepresentable', hbounded'⟩ := m'
  rwa [Magnitude.mk.injEq]

lemma le_log2_of_pow_le {n bits : Nat} (h : 2 ^ bits ≤ n) : bits ≤ n.log2 := by
  have hpos : 0 < 2 ^ bits := pow_pos (by decide) bits
  exact (Nat.le_log2 (by omega)).2 h

/-- No magnitude is greater than the greatest. -/
lemma units_le_greatest (m : Magnitude) : m.units ≤ greatest.units := by
  obtain ⟨hgreatest, hlimit, hhalf, -, -⟩ := greatest_bounds
  by_cases hsmall : m.units < 2 ^ 2097
  · exact Nat.le_trans (Nat.le_of_lt hsmall) hhalf
  · -- The significand has all of its 53 digits, so the units are a multiple of `2 ^ 2045`.
    have hlog : 2097 ≤ (m.units / 1).log2 := by
      rw [Nat.div_one]
      exact le_log2_of_pow_le (Nat.le_of_not_lt hsmall)
    have hexcess : 2045 ≤ excess m.units 1 := by
      rw [excess]
      omega
    have hdvd : 2 ^ 2045 ∣ m.units := by
      rw [← roundUnits_of_representable m.representable, roundUnits_eq]
      exact (pow_dvd_pow 2 hexcess).mul_left _
    obtain ⟨count, hcount⟩ := hdvd
    have hlt := m.bounded
    rw [hcount, hlimit] at hlt
    rw [hcount, hgreatest]
    have := Nat.lt_of_mul_lt_mul_left hlt
    exact Nat.mul_le_mul_left _ (by omega)

/-! ## What the reader multiplies -/

lemma ofUnits_eq_finite (negative : Bool) {num den : Nat}
    (h : roundUnits num den < unitLimit) :
    ∃ size : Magnitude, ofUnits negative num den = finite negative size ∧
      size.units = roundUnits num den :=
  ⟨_, dif_pos h, rfl⟩

/-- A whole number is finite if it is no greater than the greatest power of ten that is. -/
lemma roundUnits_lt_unitLimit {n : Nat} (h : n ≤ 10 ^ 308) :
    roundUnits (n * unitsPerOne) 1 < unitLimit := by
  have hlimit : roundUnits (10 ^ 308 * unitsPerOne) 1 < unitLimit := by decide +kernel
  exact Nat.lt_of_le_of_lt (roundUnits_mono 1 (Nat.mul_le_mul_right _ h)) hlimit

lemma ofNat_eq_finite {n : Nat} (hn : n < 2 ^ 64) :
    ∃ size : Magnitude, ofNat n = finite false size ∧
      size.units = roundUnits (n * unitsPerOne) 1 := by
  have hle : n ≤ 10 ^ 308 :=
    calc n ≤ 10 ^ 20 := by omega
      _ ≤ 10 ^ 308 := pow_le_pow_right₀ (by decide) (by decide)
  exact ofUnits_eq_finite false (roundUnits_lt_unitLimit hle)

lemma tenTo_eq_finite {exponent : Nat} (h : exponent ≤ 308) :
    ∃ size : Magnitude, tenTo exponent = finite false size ∧
      size.units = roundUnits (10 ^ exponent * unitsPerOne) 1 := by
  have hvalue : tenTo exponent = ofUnits false (10 ^ exponent * unitsPerOne) 1 := by
    rw [tenTo, ofDecimal, if_neg (by decide), if_neg (by omega), if_pos (by omega), Nat.one_mul,
      Int.toNat_natCast]
    rfl
  rw [hvalue]
  exact ofUnits_eq_finite false
    (roundUnits_lt_unitLimit (pow_le_pow_right₀ (by decide) h))

/-- The product with a significand of 64 bits is finite if its exact value rounds to less
than the greatest magnitude. -/
lemma productUnits_lt {significand exponent : Nat} (hsignificand : significand < 2 ^ 64)
    (hexponent : exponent ≤ 308)
    (h : significand * 10 ^ exponent * unitsPerOne ≤ belowGreatest) :
    productUnits significand exponent < unitLimit := by
  by_cases hsmall : exponent ≤ 288
  · have hlimit : productUnits (2 ^ 64 - 1) 288 < unitLimit := by decide +kernel
    exact Nat.lt_of_le_of_lt (productUnits_mono (by omega) hsmall) hlimit
  · -- Each of the twenty powers of ten left bounds the significand.
    have hlimit : ∀ k : Fin 20,
        productUnits (belowGreatest / (10 ^ (289 + k.val) * unitsPerOne)) (289 + k.val) <
          unitLimit := by
      decide +kernel
    obtain ⟨k, rfl⟩ := Nat.exists_eq_add_of_le (show 289 ≤ exponent by omega)
    refine Nat.lt_of_le_of_lt (productUnits_mono ?_ le_rfl) (hlimit ⟨k, by omega⟩)
    rw [Nat.le_div_iff_mul_le (Nat.mul_pos (Nat.pow_pos (by decide)) unitsPerOne_pos),
      ← Nat.mul_assoc]
    exact h

/-- A significand of 64 bits can be scaled if every whole number that is meant rounds to
less than the greatest magnitude. -/
theorem exists_scaled {significand : Nat} {exponent : Int} (hsignificand : significand < 2 ^ 64)
    (h : ∀ e : Nat, exponent = e →
      roundUnits (significand * 10 ^ e * unitsPerOne) 1 < greatest.units) :
    ∃ x, scaled? significand exponent = some x := by
  rw [scaled?]
  by_cases hzero : significand = 0
  · exact ⟨_, if_pos hzero⟩
  rw [if_neg hzero]
  rcases lt_or_ge exponent 0 with hneg | hnonneg
  · exact ⟨_, if_pos hneg⟩
  obtain ⟨e, rfl⟩ := Int.eq_ofNat_of_zero_le hnonneg
  have hbelow := le_belowGreatest (h e rfl)
  have he := exponent_le_of_le_belowGreatest hzero hbelow
  obtain ⟨x, hx, hxunits⟩ := ofNat_eq_finite hsignificand
  obtain ⟨y, hy, hyunits⟩ := tenTo_eq_finite he
  have hproduct := productUnits_lt hsignificand he hbelow
  rw [productUnits, ← hxunits, ← hyunits] at hproduct
  obtain ⟨z, hz, -⟩ := ofUnits_eq_finite (false != false) hproduct
  refine ⟨finite (false != false) z, ?_⟩
  rw [if_neg (by omega), if_neg (by omega), Int.toNat_natCast]
  dsimp only
  rw [hx, hy, mul, hz]
  rfl

end FencedCode.Double
