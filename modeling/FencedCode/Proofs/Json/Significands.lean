import FencedCode.Proofs.Json.Range
import Mathlib.Algebra.Order.Field.Power

/-!
# Significands of 64 bits

The reader takes the digits of a number as long as they fit 64 bits, and what it takes is
at most the number.  So every finite number that is written is read as some number.
-/

namespace FencedCode.Json

open Double (Magnitude digitsValue digitValue)

/-! ## Digits that fit 64 bits -/

lemma digitsValue_cons (c : Char) (digits : List Char) :
    digitsValue (c :: digits) = digitValue c * 10 ^ digits.length + digitsValue digits := by
  have hone : digitsValue [c] = digitValue c := by simp [digitsValue]
  rw [← List.singleton_append, digitsValue_append, hone]

/-- The significand spells the digits that were taken and fits 64 bits. -/
lemma gather_spec (significand : Nat) (digits : List Char) :
    ∃ taken, digits = taken ++ (gather significand digits).2 ∧
      (gather significand digits).1 =
        significand * 10 ^ taken.length + digitsValue taken ∧
      (significand < 2 ^ 64 → (gather significand digits).1 < 2 ^ 64) := by
  induction digits generalizing significand with
  | nil => exact ⟨[], by simp [gather, digitsValue]⟩
  | cons c rest ih =>
    rw [gather]
    split
    · rename_i hfits
      obtain ⟨taken, hdigits, hvalue, hbound⟩ := ih (10 * significand + digitValue c)
      refine ⟨c :: taken, ?_, ?_, fun _ => hbound hfits⟩
      · rw [List.cons_append, ← hdigits]
      · rw [hvalue, digitsValue_cons, List.length_cons]
        ring
    · exact ⟨[], by simp [digitsValue]⟩

/-- All digits are taken if their number fits 64 bits. -/
lemma gather_of_lt {significand : Nat} {digits : List Char}
    (h : significand * 10 ^ digits.length + digitsValue digits < 2 ^ 64) :
    gather significand digits =
      (significand * 10 ^ digits.length + digitsValue digits, []) := by
  induction digits generalizing significand with
  | nil => simp [gather, digitsValue]
  | cons c rest ih =>
    have hnext : significand * 10 ^ (c :: rest).length + digitsValue (c :: rest) =
        (10 * significand + digitValue c) * 10 ^ rest.length + digitsValue rest := by
      rw [digitsValue_cons, List.length_cons]
      ring
    rw [hnext] at h ⊢
    have hfits : 10 * significand + digitValue c < 1 <<< 64 := by
      have := Nat.le_mul_of_pos_right (10 * significand + digitValue c)
        (Nat.pow_pos (n := rest.length) (show 0 < 10 by decide))
      rw [Nat.one_shiftLeft]
      omega
    rw [gather, if_pos hfits, ih h]

lemma digitValue_lt {c : Char} (h : c.isDigit = true) : digitValue c < 10 := by
  have hle : c.toNat ≤ 57 := (Char.isDigit_iff_toNat.1 h).2
  have hzero : '0'.toNat = 48 := rfl
  rw [digitValue]
  omega

lemma digitsValue_lt {digits : List Char} (h : ∀ c ∈ digits, c.isDigit = true) :
    digitsValue digits < 10 ^ digits.length := by
  induction digits with
  | nil => decide
  | cons c rest ih =>
    have hc := digitValue_lt (h c List.mem_cons_self)
    have hrest := ih fun d hd => h d (List.mem_cons_of_mem c hd)
    rw [digitsValue_cons, List.length_cons, pow_succ]
    have := Nat.mul_le_mul_right (10 ^ rest.length) (Nat.le_of_lt_succ hc)
    omega

/-! ## The number of a spelling -/

/-- What the reader takes of a spelling is at most what it stands for. -/
lemma value_taken_le (s : Spelling) {taken unused : List Char}
    (h : s.fraction = taken ++ unused) :
    (digitsValue (s.whole ++ taken) : ℚ) * 10 ^ (s.exponent.getD 0 - taken.length) ≤
      s.decimal.value := by
  have hsplit : (10 : ℚ) ^ (s.exponent.getD 0 - (taken ++ unused).length) * 10 ^ unused.length =
      10 ^ (s.exponent.getD 0 - taken.length) := by
    rw [← zpow_natCast, ← zpow_add₀ (by norm_num), List.length_append]
    congr 1
    push_cast
    ring
  have hpos : (0 : ℚ) ≤ 10 ^ (s.exponent.getD 0 - (taken ++ unused).length) := by positivity
  rw [Double.Decimal.value, Spelling.decimal, h, ← List.append_assoc,
    digitsValue_append (s.whole ++ taken) unused, ← hsplit]
  push_cast
  rw [mul_comm (10 ^ _ : ℚ), ← mul_assoc]
  exact mul_le_mul_of_nonneg_right (le_add_of_nonneg_right (Nat.cast_nonneg _)) hpos

/-- A spelling is read if every whole number up to what it stands for rounds to less than
the greatest magnitude. -/
lemma exists_number_of_lt (negative : Bool) {s : Spelling} (hvalid : s.Valid)
    (hwhole : s.whole.length ≤ 16)
    (h : ∀ n : Nat, (n : ℚ) ≤ s.decimal.value →
      Double.roundUnits (n * Double.unitsPerOne) 1 < Double.greatest.units) :
    ∃ n, s.number negative = .ok n := by
  have hsize : digitsValue s.whole < 2 ^ 64 :=
    calc digitsValue s.whole < 10 ^ s.whole.length := digitsValue_lt hvalid.whole_digits
      _ ≤ 10 ^ 16 := Nat.pow_le_pow_right (by decide) hwhole
      _ < 2 ^ 64 := by decide
  have hgather : gather 0 s.whole = (digitsValue s.whole, []) := by
    rw [gather_of_lt (by omega), Nat.zero_mul, Nat.zero_add]
  obtain ⟨taken, hfraction, hvalue, hfits⟩ := gather_spec (digitsValue s.whole) s.fraction
  have hlength : s.fraction.length -
      (gather (digitsValue s.whole) s.fraction).2.length = taken.length := by
    have := congrArg List.length hfraction
    rw [List.length_append] at this
    omega
  rw [← digitsValue_append] at hvalue
  have hexact : ∀ e : Nat, s.exponent.getD 0 - taken.length = e →
      Double.roundUnits ((gather (digitsValue s.whole) s.fraction).1 * 10 ^ e *
        Double.unitsPerOne) 1 < Double.greatest.units := by
    intro e he
    refine h _ (le_trans (le_of_eq ?_) (value_taken_le s hfraction))
    rw [he, hvalue]
    push_cast
    rfl
  obtain ⟨x, hx⟩ := Double.exists_scaled (hfits hsize) hexact
  unfold Spelling.number numberOf
  rw [hgather]
  split
  · exact ⟨_, rfl⟩
  · rename_i significand dropped heq _
    obtain ⟨rfl, rfl⟩ := Prod.mk.inj heq
    have hplaces : (([] : List Char).length : Int) - (taken.length : Nat) +
        s.exponent.getD 0 = s.exponent.getD 0 - taken.length := by
      rw [List.length_nil]
      omega
    dsimp only
    rw [hlength, hplaces, hx]
    exact ⟨_, rfl⟩

/-- The greatest magnitude is read from its spelling. -/
lemma exists_number_greatest (negative : Bool) :
    ∃ n, (Spelling.ofMagnitude Double.greatest).number negative = .ok n := by
  have hok : ∀ negative : Bool,
      ((Spelling.ofMagnitude Double.greatest).number negative).isOk = true := by
    decide +kernel
  specialize hok negative
  match hresult : (Spelling.ofMagnitude Double.greatest).number negative with
  | .ok n => exact ⟨n, rfl⟩
  | .error e =>
    rw [hresult] at hok
    cases hok

/-- The spelling of a magnitude is read as some number. -/
theorem exists_number (negative : Bool) (m : Magnitude) :
    ∃ n, (Spelling.ofMagnitude m).number negative = .ok n := by
  by_cases hzero : m.units = 0
  · rw [Spelling.ofMagnitude, if_pos hzero]
    cases negative <;> exact ⟨_, rfl⟩
  rcases Nat.lt_or_eq_of_le (Double.units_le_greatest m) with hlt | heq
  · have hspelling : Spelling.ofMagnitude m = Spelling.ofDecimal (m.shortest .toEven) := by
      rw [Spelling.ofMagnitude, if_neg hzero]
    refine exists_number_of_lt negative (Spelling.valid_ofMagnitude m) ?_ fun n hn => ?_
    · rw [hspelling]
      exact Spelling.length_whole_ofDecimal _
    · rw [hspelling, Spelling.value_ofDecimal] at hn
      exact Nat.lt_of_le_of_lt ((m.shortest_spec .toEven hzero).2 n hn) hlt
  · -- The bound needs room above the magnitude, and above the greatest there is none.
    rw [Double.eq_of_units_eq heq]
    exact exists_number_greatest negative

end FencedCode.Json
