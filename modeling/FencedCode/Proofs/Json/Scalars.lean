import FencedCode.Proofs.Json.Folds
import FencedCode.Proofs.Json.Significands

/-!
# Scalars read back

The reader tells a scalar by its first character.  Words and strings are read back as they
were written.  A number is read from its sign and its spelling, so what is made of its text
does not depend on the place where it stands.
-/

namespace FencedCode

/-! ## The text of a number -/

namespace JsonNumber

open Json (Spelling NumberEnds)

/-- What the reader makes of the text of a number, if it has one. -/
def reread? (n : JsonNumber) : Option JsonNumber :=
  n.chars?.bind fun text =>
    match Json.readValue 1 0 text with
    | .ok (.number n, []) => some n
    | _ => none

/-- Whether the text of a number is the text of some number. -/
def Readable (n : JsonNumber) : Prop :=
  n.chars?.isSome → n.reread?.isSome

/-- The sign and the spelling of a number that has a text. -/
def spelling? : JsonNumber → Option (Bool × Spelling)
  | integer n => some (n < 0, ⟨Double.digitChars n.natAbs, [], none⟩)
  | float (.finite negative size) => some (negative, .ofMagnitude size)
  | float _ => none

lemma chars?_eq (n : JsonNumber) :
    n.chars? = n.spelling?.map fun s => Double.signChars s.1 ++ s.2.chars := by
  match n with
  | integer n =>
    simp [chars?, spelling?, Spelling.chars, Spelling.pointChars, Spelling.markChars]
  | float (.finite negative size) =>
    rw [chars?, Double.scientific?, Spelling.scientific_eq_chars]
    rfl
  | float .nan => rfl
  | float (.infinity negative) => rfl

lemma valid_of_spelling? {n : JsonNumber} {negative : Bool} {s : Spelling}
    (h : n.spelling? = some (negative, s)) : s.Valid := by
  match n with
  | integer n =>
    cases h
    refine ⟨Double.digitChars_ne_nil _, fun c hc => Double.isDigit_of_mem_digitChars hc,
      fun hzero => ?_, by simp⟩
    by_cases hn : n.natAbs = 0
    · rw [hn]
      rfl
    · exact absurd hzero (Double.head?_digitChars_ne hn)
  | float (.finite negative size) =>
    cases h
    exact Spelling.valid_ofMagnitude size
  | float .nan => cases h
  | float (.infinity negative) => cases h

end JsonNumber

namespace Json

/-! ## Values of one token -/

lemma readValue_scalar (fuel depth : Nat) {c : Char}
    (h : (isBetween c || c == '[' || c == '{') = false) (rest : List Char) :
    readValue fuel depth (c :: rest) = readScalar c rest := by
  simp only [Bool.or_eq_false_iff, beq_eq_false_iff_ne] at h
  obtain ⟨⟨hblank, harray⟩, hobject⟩ := h
  unfold readValue
  rw [skipBlanks_cons hblank]
  split <;> simp_all

lemma readValue_null (fuel depth : Nat) (behind : List Char) :
    readValue fuel depth (nullChars ++ behind) = .ok (.null, behind) := by
  change readValue fuel depth ('n' :: 'u' :: 'l' :: 'l' :: behind) = _
  rw [readValue_scalar fuel depth rfl]
  rfl

lemma readValue_bool (fuel depth : Nat) (b : Bool) (behind : List Char) :
    readValue fuel depth (boolChars b ++ behind) = .ok (.bool b, behind) := by
  cases b with
  | true =>
    change readValue fuel depth ('t' :: 'r' :: 'u' :: 'e' :: behind) = _
    rw [readValue_scalar fuel depth rfl]
    rfl
  | false =>
    change readValue fuel depth ('f' :: 'a' :: 'l' :: 's' :: 'e' :: behind) = _
    rw [readValue_scalar fuel depth rfl]
    rfl

lemma readValue_string (fuel depth : Nat) (s : String) (behind : List Char) :
    readValue fuel depth (stringChars s ++ behind) = .ok (.string s, behind) := by
  obtain ⟨hchars, hread⟩ := readString_stringChars s behind
  rw [hchars, readValue_scalar fuel depth rfl, readScalar, hread]
  rfl

/-! ## Numbers -/

lemma ne_of_isDigit {c d : Char} (hc : c.isDigit = true) (hd : d.isDigit = false) :
    c ≠ d := by
  rintro rfl
  rw [hc] at hd
  cases hd

lemma isBetween_of_isDigit {c : Char} (h : c.isDigit = true) : isBetween c = false := by
  simp [isBetween, ne_of_isDigit h]

lemma readScalar_digit {c : Char} (h : c.isDigit = true) (rest : List Char) :
    readScalar c rest = (readNumber false (c :: rest)).map fun r => (.number r.1, r.2) := by
  unfold readScalar
  split
  · exact absurd h (by decide)
  · exact absurd h (by decide)
  · exact absurd h (by decide)
  · exact absurd h (by decide)
  · exact absurd h (by decide)
  · rw [if_pos h]
    cases readNumber false (c :: rest) <;> rfl

lemma readScalar_minus (rest : List Char) :
    readScalar '-' rest = (readNumber true rest).map fun r => (.number r.1, r.2) := by
  unfold readScalar
  cases readNumber true rest <;> rfl

/-- A number is read from its sign and its spelling. -/
lemma readValue_spelling (fuel depth : Nat) (negative : Bool) {s : Spelling} (h : s.Valid)
    {behind : List Char} (hend : NumberEnds behind) :
    readValue fuel depth (Double.signChars negative ++ (s.chars ++ behind)) =
      (s.number negative).map fun n => (.number n, behind) := by
  have hnumber := readNumber_chars negative h hend
  cases negative with
  | true =>
    change readValue fuel depth ('-' :: (s.chars ++ behind)) = _
    rw [readValue_scalar fuel depth rfl, readScalar_minus, hnumber]
    cases s.number true <;> rfl
  | false =>
    obtain ⟨c, rest, hwhole⟩ := List.exists_cons_of_ne_nil h.whole_ne_nil
    have hdigit : c.isDigit = true := h.whole_digits c (by simp [hwhole])
    have htext : s.chars ++ behind =
        c :: (rest ++ (Spelling.pointChars s.fraction ++ Spelling.markChars s.exponent) ++
          behind) := by
      rw [Spelling.chars, hwhole]
      simp
    change readValue fuel depth (s.chars ++ behind) = _
    rw [htext] at hnumber ⊢
    rw [readValue_scalar fuel depth (by simp [isBetween_of_isDigit, ne_of_isDigit, hdigit]),
      readScalar_digit hdigit, hnumber]
    cases s.number false <;> rfl

end Json

/-- What the reader makes of a number is decided by its spelling alone. -/
lemma JsonNumber.reread?_eq {n : JsonNumber} {negative : Bool} {s : Json.Spelling}
    (h : n.spelling? = some (negative, s)) :
    n.reread? = (s.number negative).toOption := by
  have hread := Json.readValue_spelling 1 0 negative (valid_of_spelling? h) Json.numberEnds_nil
  rw [List.append_nil] at hread
  rw [reread?, chars?_eq, h, Option.map_some, Option.bind_some, hread]
  cases s.number negative <;> rfl

end FencedCode
