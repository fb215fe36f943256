import FencedCode.Json.Text
import FencedCode.Json.Writer
import Mathlib.Tactic.Lemma

/-!
# Strings read back

A string that is written between quotes is read back, whatever characters it holds and
whatever follows it.  The reader undoes one escape at a time.
-/

namespace FencedCode.Json

/-! ## Digits of base sixteen -/

lemma hexValue?_hexDigit {n : Nat} (h : n < 16) : hexValue? (hexDigit n) = some n := by
  have hall : ∀ k : Fin 16, hexValue? (hexDigit k) = some k.val := by decide
  exact hall ⟨n, h⟩

lemma utf8Size_hexDigit {n : Nat} (h : n < 16) : (hexDigit n).utf8Size = 1 := by
  have hall : ∀ k : Fin 16, (hexDigit k).utf8Size = 1 := by decide
  exact hall ⟨n, h⟩

lemma byteLength_cons (c : Char) (text : List Char) :
    byteLength (c :: text) = c.utf8Size + byteLength text := by
  simp [byteLength, String.ofList_cons]

/-- The four digits of a control character are enough for the reader. -/
lemma enterDigits_control {n : Nat} (h : n < 32) (rest : List Char) :
    enterDigits none ('0' :: '0' :: hexDigit (n / 16) :: hexDigit (n % 16) :: rest) =
      .ok (.digits none 4 0) := by
  have hhigh := utf8Size_hexDigit (n := n / 16) (by omega)
  have hlow := utf8Size_hexDigit (n := n % 16) (by omega)
  have hzero : ('0' : Char).utf8Size = 1 := by decide
  have hlength : byteLength ['0', '0', hexDigit (n / 16), hexDigit (n % 16)] = 4 := by
    simp only [byteLength_cons, hhigh, hlow, hzero]
    rfl
  simp [enterDigits, hlength]

/-! ## Characters -/

/-- The six characters that stand for a control character are read as that character. -/
lemma readString_control (done : List Char) {c : Char} (h : c.toNat < 32)
    (rest : List Char) :
    readString done .plain ('\\' :: 'u' :: '0' :: '0' :: hexDigit (c.toNat / 16) ::
      hexDigit (c.toNat % 16) :: rest) = readString (c :: done) .plain rest := by
  have hhigh := hexValue?_hexDigit (n := c.toNat / 16) (by omega)
  have hlow := hexValue?_hexDigit (n := c.toNat % 16) (by omega)
  have hzero : hexValue? '0' = some 0 := by decide
  have hvalue : 16 * (c.toNat / 16) + c.toNat % 16 = c.toNat := by omega
  have hunit : escapedUnit none c.toNat = .ok (.inl c) := by
    rw [escapedUnit, if_neg (by omega), if_neg (by omega), Char.ofNat_toNat]
  simp [readString, simpleEscape?, enterDigits_control h, hhigh, hlow, hzero, hvalue, hunit]

/-- What is written for a character is read as that character. -/
lemma readString_escapedChar (done : List Char) (c : Char) (rest : List Char) :
    readString done .plain (escapedChar c ++ rest) = readString (c :: done) .plain rest := by
  unfold escapedChar
  split
  · simp [readString, simpleEscape?]
  · simp [readString, simpleEscape?]
  · simp [readString, simpleEscape?]
  · simp [readString, simpleEscape?]
  · simp [readString, simpleEscape?]
  · simp [readString, simpleEscape?]
  · simp [readString, simpleEscape?]
  · rename_i hquote hslash _ _ _ _ _
    split
    · rename_i hcontrol
      exact readString_control done hcontrol rest
    · rename_i hplain
      rw [List.singleton_append, readString]
      simp only [if_neg hquote, if_neg hslash, if_neg hplain]

lemma readString_flatMap (done text rest : List Char) :
    readString done .plain (text.flatMap escapedChar ++ '"' :: rest) =
      .ok (String.ofList (done.reverse ++ text), rest) := by
  induction text generalizing done with
  | nil => simp [readString]
  | cons c text ih =>
    rw [List.flatMap_cons, List.append_assoc, readString_escapedChar, ih]
    simp

/-! ## The main result -/

/-- A string that is written in front of a text is read back, and the text is left. -/
theorem readString_stringChars (s : String) (behind : List Char) :
    stringChars s ++ behind = '"' :: (s.toList.flatMap escapedChar ++ '"' :: behind) ∧
      readString [] .plain (s.toList.flatMap escapedChar ++ '"' :: behind) =
        .ok (s, behind) := by
  constructor
  · simp [stringChars]
  · rw [readString_flatMap]
    simp

end FencedCode.Json
