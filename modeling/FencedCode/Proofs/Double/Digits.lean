import FencedCode.Double.Text
import Mathlib.Tactic.Lemma

/-!
# Digits of natural numbers

The digits of a number are digits, there is at least one, the first is no zero unless the
number is zero, and they spell the number.
-/

namespace FencedCode.Double

lemma isDigit_of_mem_digitChars {n : Nat} {c : Char} (h : c ∈ digitChars n) :
    c.isDigit = true :=
  Nat.isDigit_of_mem_toDigits (by decide) (by decide) h

lemma digitChars_ne_nil (n : Nat) : digitChars n ≠ [] :=
  Nat.toDigits_ne_nil

/-- The value of some digits is the library's. -/
lemma digitsValue_eq (digits : List Char) :
    digitsValue digits = Nat.ofDigitChars 10 digits 0 := by
  rw [digitsValue, Nat.ofDigitChars_eq_foldl]
  rfl

@[simp] lemma digitsValue_digitChars (n : Nat) : digitsValue (digitChars n) = n := by
  rw [digitsValue_eq, digitChars, Nat.ofDigitChars_ten_toDigits]

/-- A number other than zero does not start with a zero. -/
lemma head?_digitChars_ne {n : Nat} (h : n ≠ 0) : (digitChars n).head? ≠ some '0' := by
  induction n using Nat.strongRecOn with
  | ind n ih =>
    by_cases hn : n < 10
    · have hall : ∀ k : Fin 10, k.val ≠ 0 → k.val.digitChar ≠ '0' := by decide
      rw [digitChars, Nat.toDigits_of_lt_base hn, List.head?_cons, Ne, Option.some_inj]
      exact hall ⟨n, hn⟩ h
    · have hfirst := ih (n / 10) (by omega) (by omega)
      obtain ⟨first, rest, hdigits⟩ := List.exists_cons_of_ne_nil (digitChars_ne_nil (n / 10))
      rw [digitChars] at hfirst hdigits ⊢
      rw [hdigits, List.head?_cons] at hfirst
      rwa [Nat.toDigits_of_base_le (by decide) (by omega), hdigits, List.cons_append,
        List.head?_cons]

end FencedCode.Double
