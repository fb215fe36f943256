import FencedCode.Json.Number
import FencedCode.Proofs.Double.Digits

/-!
# Numbers read from their spelling

A number is spelled by digits, digits behind a point and an exponent, of which the last two
may be missing.  The reader takes a well-formed spelling off the front of a text, provided
that the text behind it does not go on with something that belongs to a number.
-/

namespace FencedCode.Json

/-! ## Spellings -/

/-- How a number without sign is spelled. -/
structure Spelling where
  /-- The digits in front of the point. -/
  whole : List Char
  /-- The digits behind the point; without any there is no point. -/
  fraction : List Char
  /-- The exponent. -/
  exponent : Option Int

namespace Spelling

/-- The point and what is behind it. -/
def pointChars : List Char → List Char
  | [] => []
  | fraction => '.' :: fraction

/-- The exponent with its mark. -/
def markChars : Option Int → List Char
  | none => []
  | some e => Double.exponentChars e

/-- The text of a spelling. -/
def chars (s : Spelling) : List Char :=
  s.whole ++ (pointChars s.fraction ++ markChars s.exponent)

/-- There are digits in front of the point, with a zero in front only if it is alone, and
digits behind it. -/
structure Valid (s : Spelling) : Prop where
  whole_ne_nil : s.whole ≠ []
  whole_digits : ∀ c ∈ s.whole, c.isDigit = true
  no_leading_zero : s.whole.head? = some '0' → s.whole = ['0']
  fraction_digits : ∀ c ∈ s.fraction, c.isDigit = true

/-- The number that the reader makes of a sign and a spelling. -/
def number (negative : Bool) (s : Spelling) : Except Error JsonNumber :=
  numberOf negative s.whole s.fraction s.exponent

end Spelling

/-! ## What follows a number -/

/-- No digit goes on in front of a text. -/
def DigitsEnd (text : List Char) : Prop :=
  ∀ c ∈ text.head?, c.isDigit = false

/-- No number goes on in front of a text. -/
def NumberEnds (text : List Char) : Prop :=
  ∀ c ∈ text.head?, c.isDigit = false ∧ c ≠ '.' ∧ c ≠ 'e' ∧ c ≠ 'E'

lemma NumberEnds.digitsEnd {text : List Char} (h : NumberEnds text) : DigitsEnd text :=
  fun c hc => (h c hc).1

lemma numberEnds_nil : NumberEnds [] := by
  intro c hc
  simp at hc

lemma digitsEnd_cons {c : Char} {text : List Char} (h : c.isDigit = false) :
    DigitsEnd (c :: text) := by
  intro d hd
  rw [List.head?_cons, Option.mem_some_iff] at hd
  exact hd ▸ h

lemma digitsEnd_markChars (exponent : Option Int) {behind : List Char}
    (h : DigitsEnd behind) : DigitsEnd (Spelling.markChars exponent ++ behind) := by
  match exponent with
  | none => exact h
  | some e => exact digitsEnd_cons (by decide)

lemma digitsEnd_pointChars (fraction : List Char) {behind : List Char}
    (h : DigitsEnd behind) : DigitsEnd (Spelling.pointChars fraction ++ behind) := by
  match fraction with
  | [] => exact h
  | c :: rest => exact digitsEnd_cons (by decide)

/-! ## The parts of a number -/

lemma takeWhile_of_digitsEnd {text : List Char} (h : DigitsEnd text) :
    text.takeWhile Char.isDigit = [] ∧ text.dropWhile Char.isDigit = text := by
  match text with
  | [] => exact ⟨rfl, rfl⟩
  | c :: rest =>
    have hc : c.isDigit = false := h c rfl
    simp [hc]

/-- A non-empty row of digits is read up to its end. -/
lemma readDigits_append {digits text : List Char} (hne : digits ≠ [])
    (hdigits : ∀ c ∈ digits, c.isDigit = true) (hend : DigitsEnd text) :
    readDigits (digits ++ text) = .ok (digits, text) := by
  obtain ⟨htake, hdrop⟩ := takeWhile_of_digitsEnd hend
  obtain ⟨c, rest, rfl⟩ := List.exists_cons_of_ne_nil hne
  rw [readDigits, List.takeWhile_append_of_pos hdigits, List.dropWhile_append_of_pos hdigits,
    htake, hdrop, List.append_nil]

lemma readWhole_append {s : Spelling} (h : s.Valid) {text : List Char}
    (hend : DigitsEnd text) : readWhole (s.whole ++ text) = .ok (s.whole, text) := by
  have hzero := h.no_leading_zero
  rw [readWhole, readDigits_append h.whole_ne_nil h.whole_digits hend]
  split
  · rename_i hdigits
    rw [Except.ok.injEq, Prod.mk.injEq] at hdigits
    rw [hdigits.1] at hzero
    simp at hzero
  · rfl

lemma readFraction_append {s : Spelling} (h : s.Valid) {text : List Char}
    (hend : DigitsEnd text) (hpoint : ∀ c ∈ text.head?, c ≠ '.') :
    readFraction (Spelling.pointChars s.fraction ++ text) = .ok (s.fraction, text) := by
  have hdigits := h.fraction_digits
  cases hfraction : s.fraction with
  | nil =>
    match text with
    | [] => rfl
    | c :: rest =>
      have hc : c ≠ '.' := hpoint c rfl
      simp [Spelling.pointChars, readFraction, hc]
  | cons c rest =>
    rw [hfraction] at hdigits
    exact readDigits_append (List.cons_ne_nil c rest) hdigits hend

lemma readExponent_append (exponent : Option Int) {text : List Char}
    (hend : NumberEnds text) :
    readExponent (Spelling.markChars exponent ++ text) = .ok (exponent, text) := by
  match exponent with
  | none =>
    match text with
    | [] => rfl
    | c :: rest =>
      obtain ⟨-, -, hlower, hupper⟩ := hend c rfl
      simp [Spelling.markChars, readExponent, hlower, hupper]
  | some e =>
    have hdigits := readDigits_append (Double.digitChars_ne_nil e.natAbs)
      (fun c hc => Double.isDigit_of_mem_digitChars hc) hend.digitsEnd
    by_cases hneg : e < 0
    · have hsize : -(e.natAbs : Int) = e := by omega
      simp only [Spelling.markChars, Double.exponentChars, if_pos hneg, List.cons_append,
        readExponent, true_or, if_true, Double.splitSign, hdigits,
        Double.digitsValue_digitChars, hsize]
    · have hsize : (e.natAbs : Int) = e := by omega
      simp only [Spelling.markChars, Double.exponentChars, if_neg hneg, List.cons_append,
        readExponent, true_or, if_true, Double.splitSign, hdigits,
        Double.digitsValue_digitChars, hsize]
      rfl

/-! ## The main result -/

/-- A number is read from its spelling, and what follows it is left. -/
theorem readNumber_chars (negative : Bool) {s : Spelling} (h : s.Valid) {behind : List Char}
    (hend : NumberEnds behind) :
    readNumber negative (s.chars ++ behind) =
      (s.number negative).map fun n => (n, behind) := by
  have hmark := digitsEnd_markChars s.exponent hend.digitsEnd
  have hnoPoint : ∀ c ∈ (Spelling.markChars s.exponent ++ behind).head?, c ≠ '.' := by
    intro c hc
    match hexponent : s.exponent with
    | none =>
      rw [hexponent] at hc
      exact (hend c hc).2.1
    | some e =>
      rw [hexponent, Spelling.markChars, Double.exponentChars, List.cons_append,
        List.head?_cons, Option.mem_some_iff] at hc
      rw [← hc]
      decide
  have hwhole := readWhole_append h (digitsEnd_pointChars s.fraction hmark)
  have hfraction := readFraction_append h hmark hnoPoint
  have hexponent := readExponent_append s.exponent hend
  rw [Spelling.chars, List.append_assoc, List.append_assoc, readNumber, Spelling.number]
  simp only [hwhole, hfraction, hexponent, bind, Except.bind]
  cases numberOf negative s.whole s.fraction s.exponent <;> rfl

end FencedCode.Json
