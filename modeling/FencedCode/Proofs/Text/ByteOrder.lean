import Mathlib.Data.List.Basic
import Mathlib.Tactic.Lemma
import Mathlib.Tactic.SplitIfs

/-!
# The order of bytes

Texts are compared by code points.  This is the order of their bytes in UTF-8: where two
characters differ, the bytes of the smaller one are smaller in the first place where they
differ, whatever follows, `utf8EncodeChar_append_lt`.  The main result is `bytes_lt_iff`.
-/

namespace FencedCode.Text

/-- The bytes of a text in UTF-8. -/
def bytes (s : String) : List UInt8 :=
  s.toUTF8.data.toList

lemma bytes_eq_flatMap (s : String) : bytes s = s.toList.flatMap String.utf8EncodeChar := by
  rw [bytes, String.toUTF8_eq_toByteArray, ← String.utf8Encode_toList, List.utf8Encode,
    List.toList_data_toByteArray]

/-! ## The bytes of a character -/

lemma toNat_val_lt (c : Char) : c.val.toNat < 0x110000 := by
  have h := c.valid
  simp only [UInt32.isValidChar, Nat.isValidChar] at h
  omega

/-- The smaller one of two numbers is smaller in the first place where their digits to the
base 64 differ. -/
lemma digits_lt_of_lt {v w : Nat} (h : v < w) :
    v / 262144 < w / 262144 ∨ v / 262144 = w / 262144 ∧
      (v / 4096 % 64 < w / 4096 % 64 ∨ v / 4096 % 64 = w / 4096 % 64 ∧
        (v / 64 % 64 < w / 64 % 64 ∨ v / 64 % 64 = w / 64 % 64 ∧ v % 64 < w % 64)) := by
  have hdigit : ∀ {a b : Nat}, a < b →
      a / 64 < b / 64 ∨ a / 64 = b / 64 ∧ a % 64 < b % 64 := by
    intro a b hab
    omega
  have hnext : ∀ n, n / 64 / 64 = n / 4096 ∧ n / 4096 / 64 = n / 262144 :=
    fun n => ⟨Nat.div_div_eq_div_mul n 64 64, Nat.div_div_eq_div_mul n 4096 64⟩
  have hv := hnext v
  have hw := hnext w
  rcases hdigit h with h | h
  · rcases hdigit h with h | h
    · rw [hv.1, hw.1] at h
      rcases hdigit h with h | h <;> omega
    · omega
  · omega

lemma ofNat_lt_ofNat_iff {a b : Nat} (ha : a < 256) (hb : b < 256) :
    UInt8.ofNat a < UInt8.ofNat b ↔ a < b := by
  rw [UInt8.lt_iff_toNat_lt, UInt8.toNat_ofNat', UInt8.toNat_ofNat', Nat.mod_eq_of_lt ha,
    Nat.mod_eq_of_lt hb]

lemma ofNat_eq_ofNat_iff {a b : Nat} (ha : a < 256) (hb : b < 256) :
    UInt8.ofNat a = UInt8.ofNat b ↔ a = b := by
  rw [← UInt8.toNat_inj, UInt8.toNat_ofNat', UInt8.toNat_ofNat', Nat.mod_eq_of_lt ha,
    Nat.mod_eq_of_lt hb]

/-- The bytes of a smaller character are smaller, whatever follows. -/
lemma utf8EncodeChar_append_lt {c d : Char} (h : c < d) (s u : List UInt8) :
    String.utf8EncodeChar c ++ s < String.utf8EncodeChar d ++ u := by
  have hlt : c.val.toNat < d.val.toNat := UInt32.lt_iff_toNat_lt.1 h
  have hmax := toNat_val_lt d
  have hdigits := digits_lt_of_lt hlt
  have hfirst : ∀ {n : Nat}, n < 0x110000 → n / 262144 % 8 = n / 262144 := by
    intro n hn
    omega
  have hv := hfirst (Nat.lt_trans hlt hmax)
  have hw := hfirst hmax
  simp only [String.utf8EncodeChar]
  generalize c.val.toNat = v at *
  generalize d.val.toNat = w at *
  -- A longer encoding starts with a greater byte, and in encodings of the same length the
  -- bytes are the digits.
  split_ifs <;>
    simp (disch := omega) only [List.cons_append, List.nil_append, List.cons_lt_cons_iff,
      ofNat_lt_ofNat_iff, ofNat_eq_ofNat_iff] <;>
    omega

/-! ## The bytes of a text -/

lemma flatMap_utf8EncodeChar_lt {cs ds : List Char} (h : cs < ds) :
    cs.flatMap String.utf8EncodeChar < ds.flatMap String.utf8EncodeChar := by
  induction cs generalizing ds with
  | nil =>
    cases ds with
    | nil => exact absurd h (List.lt_irrefl [])
    | cons d ds =>
      obtain ⟨b, bs, hd⟩ := List.exists_cons_of_ne_nil (@String.utf8EncodeChar_ne_nil d)
      rw [List.flatMap_nil, List.flatMap_cons, hd]
      exact List.nil_lt_cons _ _
  | cons c cs ih =>
    cases ds with
    | nil => exact absurd h (List.not_lt_nil _)
    | cons d ds =>
      rw [List.flatMap_cons, List.flatMap_cons]
      rcases List.cons_lt_cons_iff.1 h with hlt | ⟨rfl, htail⟩
      · exact utf8EncodeChar_append_lt hlt _ _
      · exact List.append_left_lt (ih htail)

lemma bytes_lt_of_lt {s u : String} (h : s < u) : bytes s < bytes u := by
  rw [bytes_eq_flatMap, bytes_eq_flatMap]
  exact flatMap_utf8EncodeChar_lt h

/-- The order of texts is the order of their bytes. -/
theorem bytes_lt_iff (s u : String) : bytes s < bytes u ↔ s < u := by
  constructor
  · intro h
    by_contra hnot
    by_cases heq : u = s
    · exact List.lt_irrefl _ (heq ▸ h)
    · have hlt : u < s := Std.lt_of_le_of_ne (String.not_lt.1 hnot) heq
      exact List.lt_asymm h (bytes_lt_of_lt hlt)
  · exact bytes_lt_of_lt

end FencedCode.Text
