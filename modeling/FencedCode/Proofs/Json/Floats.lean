import FencedCode.Proofs.Double.Shortest
import FencedCode.Proofs.Json.Numbers

/-!
# How floating-point numbers are spelled

The text of a finite number is a well-formed spelling: a positional one, which always has a
point, or a single digit in front of the point and an exponent.  It stands for the decimal
with the fewest digits that reads back.
-/

namespace FencedCode.Json

open Double (Decimal Magnitude digitChars digitsValue zeros)

/-! ## The value of digits -/

lemma digitsValue_append (xs ys : List Char) :
    digitsValue (xs ++ ys) = digitsValue xs * 10 ^ ys.length + digitsValue ys := by
  rw [Double.digitsValue_eq, Double.digitsValue_eq, Double.digitsValue_eq,
    Nat.ofDigitChars_append, Nat.ofDigitChars_eq_ofDigitChars_zero, Nat.mul_comm]

lemma digitsValue_zeros (n : Nat) : digitsValue (zeros n) = 0 := by
  rw [Double.digitsValue_eq, zeros, Nat.ofDigitChars_replicate_zero, Nat.mul_zero]

/-! ## The spelling of a decimal -/

namespace Spelling

/-- The decimal that a spelling stands for. -/
def decimal (s : Spelling) : Decimal :=
  ⟨digitsValue (s.whole ++ s.fraction), s.exponent.getD 0 - s.fraction.length⟩

/-- The spelling of a decimal written positionally, with a zero behind the point if there
is nothing else. -/
def positional (d : Decimal) : Spelling :=
  match d.wholeAndFraction with
  | (whole, []) => ⟨whole, ['0'], none⟩
  | (whole, fraction) => ⟨whole, fraction, none⟩

/-- The spelling of a decimal whose first digit has a place value of `10 ^ leading`. -/
def normalized (d : Decimal) (leading : Int) : Spelling :=
  ⟨(digitChars d.digits).take 1, (digitChars d.digits).drop 1, some leading⟩

/-- The exponent of the place value of the first digit. -/
def leading (d : Decimal) : Int :=
  d.exponent + (digitChars d.digits).length - 1

/-- The spelling of a decimal other than zero in data files. -/
def ofDecimal (d : Decimal) : Spelling :=
  if -5 ≤ leading d ∧ leading d < 16 then positional d else normalized d (leading d)

/-- The spelling of a magnitude in data files. -/
def ofMagnitude (m : Magnitude) : Spelling :=
  if m.units = 0 then ⟨['0'], ['0'], none⟩ else ofDecimal (m.shortest .toEven)

/-- The text of a magnitude is that of its spelling. -/
lemma scientific_eq_chars (m : Magnitude) : m.scientific = (ofMagnitude m).chars := by
  unfold Magnitude.scientific ofMagnitude
  by_cases hm : m.units = 0
  · rw [if_pos hm, if_pos hm]
    rfl
  · rw [if_neg hm, if_neg hm]
    generalize m.shortest .toEven = d
    rw [ofDecimal, leading]
    dsimp only
    split
    · rw [positional]
      obtain ⟨whole, fraction⟩ := d.wholeAndFraction
      cases fraction with
      | nil => rfl
      | cons c fraction => simp [chars, pointChars, markChars]
    · obtain ⟨first, rest, hdigits⟩ :=
        List.exists_cons_of_ne_nil (Double.digitChars_ne_nil d.digits)
      rw [normalized, hdigits]
      cases rest <;> rfl

/-! ## The three forms of a positional spelling -/

/-- A positional spelling has a zero behind the point, has the point among the digits, or
has a zero in front of it. -/
lemma positional_cases (d : Decimal) :
    (0 ≤ d.exponent ∧
      positional d = ⟨digitChars d.digits ++ zeros d.exponent.toNat, ['0'], none⟩) ∨
    (∃ count : Nat, 0 < count ∧ d.exponent = count - (digitChars d.digits).length ∧
      d.exponent < 0 ∧
      positional d =
        ⟨(digitChars d.digits).take count, (digitChars d.digits).drop count, none⟩) ∨
    (∃ count : Nat, d.exponent = -(count + (digitChars d.digits).length) ∧
      positional d = ⟨['0'], zeros count ++ digitChars d.digits, none⟩) := by
  have hne := Double.digitChars_ne_nil d.digits
  have hform : ∀ whole fraction : List Char, d.wholeAndFraction = (whole, fraction) →
      fraction ≠ [] → positional d = ⟨whole, fraction, none⟩ := by
    intro whole fraction heq hfraction
    obtain ⟨c, rest, rfl⟩ := List.exists_cons_of_ne_nil hfraction
    rw [positional, heq]
  rcases le_or_gt 0 d.exponent with hexponent | hexponent
  · refine .inl ⟨hexponent, ?_⟩
    rw [positional, Decimal.wholeAndFraction, if_pos hexponent]
  · refine .inr ?_
    generalize hplaces : (-d.exponent).toNat = places
    by_cases hlt : places < (digitChars d.digits).length
    · refine .inl ⟨(digitChars d.digits).length - places, by omega, by omega, hexponent,
        hform _ _ ?_ ?_⟩
      · rw [Decimal.wholeAndFraction, if_neg (by omega), hplaces, if_pos hlt]
      · rw [Ne, List.drop_eq_nil_iff]
        omega
    · refine .inr ⟨places - (digitChars d.digits).length, by omega, hform _ _ ?_ ?_⟩
      · rw [Decimal.wholeAndFraction, if_neg (by omega), hplaces, if_neg hlt]
      · exact List.append_ne_nil_of_right_ne_nil _ hne

lemma isDigit_of_mem_zeros {n : Nat} {c : Char} (h : c ∈ zeros n) : c.isDigit = true := by
  rw [List.eq_of_mem_replicate h]
  rfl

lemma valid_positional {d : Decimal} (hd : d.digits ≠ 0) : (positional d).Valid := by
  have hne := Double.digitChars_ne_nil d.digits
  have hdigits : ∀ c ∈ digitChars d.digits, c.isDigit = true :=
    fun c hc => Double.isDigit_of_mem_digitChars hc
  have hhead := Double.head?_digitChars_ne hd
  rcases positional_cases d with ⟨-, h⟩ | ⟨count, hcount, -, -, h⟩ | ⟨count, -, h⟩
  · rw [h]
    refine ⟨List.append_ne_nil_of_left_ne_nil hne _, ?_, fun hzero => ?_, by simp⟩
    · intro c hc
      exact (List.mem_append.1 hc).elim (hdigits c) isDigit_of_mem_zeros
    · rw [List.head?_append_of_ne_nil _ hne] at hzero
      exact absurd hzero hhead
  · rw [h]
    refine ⟨?_, fun c hc => hdigits c (List.mem_of_mem_take hc), fun hzero => ?_,
      fun c hc => hdigits c (List.mem_of_mem_drop hc)⟩
    · rw [Ne, List.take_eq_nil_iff]
      exact fun hnil => hnil.elim (by omega) hne
    · rw [List.head?_take, if_neg (by omega)] at hzero
      exact absurd hzero hhead
  · rw [h]
    refine ⟨by simp, by simp, fun _ => rfl, fun c hc => ?_⟩
    exact (List.mem_append.1 hc).elim isDigit_of_mem_zeros (hdigits c)

lemma valid_normalized {d : Decimal} (hd : d.digits ≠ 0) (leading : Int) :
    (normalized d leading).Valid := by
  have hdigits : ∀ c ∈ digitChars d.digits, c.isDigit = true :=
    fun c hc => Double.isDigit_of_mem_digitChars hc
  refine ⟨?_, fun c hc => hdigits c (List.mem_of_mem_take hc), fun hzero => ?_,
    fun c hc => hdigits c (List.mem_of_mem_drop hc)⟩
  · rw [normalized, Ne, List.take_eq_nil_iff]
    exact fun h => h.elim (by decide) (Double.digitChars_ne_nil d.digits)
  · rw [normalized, List.head?_take, if_neg (by decide)] at hzero
    exact absurd hzero (Double.head?_digitChars_ne hd)

/-- The text of a magnitude is a number by the rules of the reader. -/
theorem valid_ofMagnitude (m : Magnitude) : (ofMagnitude m).Valid := by
  rw [ofMagnitude]
  split
  · exact ⟨by simp, by simp, fun _ => rfl, by simp⟩
  · rename_i hm
    have hdigits := (m.shortest_spec .toEven hm).1
    rw [ofDecimal]
    split
    · exact valid_positional hdigits
    · exact valid_normalized hdigits _

/-! ## The decimal that is spelled -/

lemma value_positional (d : Decimal) : (positional d).decimal.value = d.value := by
  have hzero : digitsValue ['0'] = 0 := by decide
  rcases positional_cases d with
    ⟨hexponent, h⟩ | ⟨count, hcount, hexponent, hneg, h⟩ | ⟨count, hexponent, h⟩
  · obtain ⟨e, he⟩ := Int.eq_ofNat_of_zero_le hexponent
    rw [h, decimal, Decimal.value, Decimal.value, digitsValue_append, digitsValue_append,
      digitsValue_zeros, hzero, Double.digitsValue_digitChars, he]
    simp [zeros]
  · have hdecimal : (positional d).decimal = d := by
      rw [h, decimal, List.take_append_drop, Double.digitsValue_digitChars, List.length_drop,
        Option.getD_none, Decimal.mk.injEq]
      exact ⟨rfl, by omega⟩
    rw [hdecimal]
  · have hdecimal : (positional d).decimal = d := by
      rw [h, decimal, digitsValue_append, digitsValue_append, digitsValue_zeros, hzero,
        Double.digitsValue_digitChars, List.length_append, Option.getD_none,
        Decimal.mk.injEq, zeros, List.length_replicate]
      exact ⟨by omega, by omega⟩
    rw [hdecimal]

lemma decimal_normalized (d : Decimal) : (normalized d (leading d)).decimal = d := by
  have hpos := List.length_pos_iff.2 (Double.digitChars_ne_nil d.digits)
  rw [normalized, decimal, List.take_append_drop, Double.digitsValue_digitChars, leading,
    List.length_drop, Option.getD_some, Decimal.mk.injEq]
  exact ⟨rfl, by omega⟩

/-- A spelling stands for the decimal that is spelled. -/
theorem value_ofDecimal (d : Decimal) : (ofDecimal d).decimal.value = d.value := by
  rw [ofDecimal]
  split
  · exact value_positional d
  · rw [decimal_normalized]

/-- At most sixteen digits stand in front of the point. -/
theorem length_whole_ofDecimal (d : Decimal) : (ofDecimal d).whole.length ≤ 16 := by
  rw [ofDecimal]
  split
  · rename_i hrange
    rw [leading] at hrange
    rcases positional_cases d with
      ⟨hexponent, h⟩ | ⟨count, hcount, hexponent, hneg, h⟩ | ⟨count, hexponent, h⟩
    · rw [h, List.length_append, zeros, List.length_replicate]
      omega
    · rw [h, List.length_take]
      omega
    · simp [h]
  · rw [normalized, List.length_take]
    omega

end Spelling

end FencedCode.Json
