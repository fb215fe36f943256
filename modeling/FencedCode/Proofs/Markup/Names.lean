import FencedCode.Markup.Attribute
import Mathlib.Tactic.Lemma

/-!
# Names in markup

A name is written into a tag as it stands, and so it has to be free of the characters that a
reader of the tag goes by: blanks, and the six that delimit tags and attributes.  The name of
an attribute is one of four or follows the general rule, `attributeName_cases`.  By this rule it
is made of the characters of the property name in lower case and of hyphens, `mem_loweredName`,
and so it is a name if the property name is one, `IsName.attributeName`.
-/

namespace FencedCode.Markup

/-! ## Names -/

/-- The characters other than blanks that no name in a tag may have. -/
def delimiters : List Char :=
  ['<', '>', '/', '"', '=', '!']

/-- Whether a character may stand in a name. -/
def isNameChar (c : Char) : Bool :=
  !Text.isBlank c && !delimiters.contains c

/-- A text that can be written into a tag as a name. -/
def IsName (name : String) : Prop :=
  name ≠ "" ∧ name.toList.all isNameChar = true

instance (name : String) : Decidable (IsName name) :=
  inferInstanceAs (Decidable (name ≠ "" ∧ name.toList.all isNameChar = true))

lemma IsName.toList_ne_nil {name : String} (h : IsName name) : name.toList ≠ [] :=
  fun hnil => h.1 (String.toList_eq_nil_iff.1 hnil)

lemma IsName.isNameChar {name : String} (h : IsName name) {c : Char}
    (hc : c ∈ name.toList) : isNameChar c = true :=
  List.all_eq_true.1 h.2 c hc

lemma IsName.not_mem {name : String} (h : IsName name) {c : Char}
    (hc : Markup.isNameChar c = false) : c ∉ name.toList := by
  intro hmem
  rw [h.isNameChar hmem] at hc
  exact Bool.false_ne_true hc.symm

lemma IsName.ne_of_mem {name : String} (h : IsName name) {c d : Char} (hc : c ∈ name.toList)
    (hd : Markup.isNameChar d = false) : c ≠ d := by
  rintro rfl
  exact h.not_mem hd hc

/-! ## Lower case -/

/-- Small letters may stand in names. -/
lemma isNameChar_of_small {c : Char} (h : 97 ≤ c.toNat ∧ c.toNat ≤ 122) :
    isNameChar c = true := by
  have hblank : Text.isBlank c = false := by
    simp [Text.isBlank]
    omega
  have hdelimiter : c ∉ delimiters := by
    intro hmem
    simp only [delimiters, List.mem_cons, List.not_mem_nil, or_false] at hmem
    rcases hmem with rfl | rfl | rfl | rfl | rfl | rfl <;> exact absurd h.1 (by decide)
  simp [isNameChar, hblank, hdelimiter]

lemma toLower_of_not_isUpper {c : Char} (h : ¬c.isUpper = true) : c.toLower = c :=
  dif_neg fun hrange => h (decide_eq_true hrange)

lemma isUpper_iff {c : Char} : c.isUpper = true ↔ 65 ≤ c.toNat ∧ c.toNat ≤ 90 := by
  have hrange : c.isUpper = true ↔ 'A'.val ≤ c.val ∧ c.val ≤ 'Z'.val := decide_eq_true_iff
  exact hrange.trans (and_congr UInt32.le_iff_toNat_le UInt32.le_iff_toNat_le)

/-- The small letters come in the order of the capitals, 32 places behind them. -/
lemma toNat_toLower {c : Char} (h : c.isUpper = true) : c.toLower.toNat = c.toNat + 32 := by
  have hrange : 'A'.val ≤ c.val ∧ c.val ≤ 'Z'.val := of_decide_eq_true h
  have hhigh : c.toNat ≤ 90 := (isUpper_iff.1 h).2
  have hdistance : ('a'.val - 'A'.val).toNat = 32 := by decide
  have hvalue : c.toLower.val = c.val + ('a'.val - 'A'.val) := congrArg Char.val (dif_pos hrange)
  rw [← Char.toNat_val, hvalue, UInt32.toNat_add, hdistance, Char.toNat_val]
  omega

lemma toNat_toLower_of_isUpper {c : Char} (h : c.isUpper = true) :
    97 ≤ c.toLower.toNat ∧ c.toLower.toNat ≤ 122 := by
  have hcapital := isUpper_iff.1 h
  have hshift := toNat_toLower h
  omega

lemma isNameChar_toLower {c : Char} (h : isNameChar c = true) :
    isNameChar c.toLower = true := by
  by_cases hupper : c.isUpper = true
  · exact isNameChar_of_small (toNat_toLower_of_isUpper hupper)
  · rwa [toLower_of_not_isUpper hupper]

/-! ## Names of attributes -/

lemma mem_hyphenated {c d : Char} (h : d ∈ hyphenated c) : d = '-' ∨ d = c.toLower := by
  rw [hyphenated] at h
  split at h
  · simpa using h
  · rename_i hupper
    rw [toLower_of_not_isUpper hupper]
    exact .inr (List.mem_singleton.1 h)

/-- The general rule for names puts the characters in lower case and adds hyphens. -/
lemma mem_loweredName {cs : List Char} {d : Char} (h : d ∈ loweredName cs) :
    d = '-' ∨ ∃ c ∈ cs, d = c.toLower := by
  have hlower : ∀ cs : List Char, d ∈ cs.map Char.toLower → ∃ c ∈ cs, d = c.toLower := by
    intro cs hd
    obtain ⟨c, hc, rfl⟩ := List.mem_map.1 hd
    exact ⟨c, hc, rfl⟩
  rw [loweredName.eq_def] at h
  split at h
  · rename_i c rest
    split at h
    · -- The four letters of `data` are in lower case already.
      have hsplit : d ∈ ['d', 'a', 't', 'a'].map Char.toLower ++
          (c :: rest).flatMap hyphenated := h
      rcases List.mem_append.1 hsplit with hdata | hrest
      · obtain ⟨x, hx, hd⟩ := hlower _ hdata
        exact .inr ⟨x, List.mem_append_left (c :: rest) hx, hd⟩
      · obtain ⟨x, hx, hd⟩ := List.mem_flatMap.1 hrest
        refine (mem_hyphenated hd).imp id fun heq => ⟨x, ?_, heq⟩
        exact List.mem_append_right ['d', 'a', 't', 'a'] hx
    · exact .inr (hlower _ h)
  · exact .inr (hlower _ h)

lemma loweredName_ne_nil {cs : List Char} (h : cs ≠ []) : loweredName cs ≠ [] := by
  rw [loweredName.eq_def]
  split
  · split <;> simp
  · simpa using h

lemma isName_ofList_loweredName {property : String} (h : IsName property) :
    IsName (String.ofList (loweredName property.toList)) := by
  constructor
  · simpa using loweredName_ne_nil h.toList_ne_nil
  · rw [String.toList_ofList, List.all_eq_true]
    intro d hd
    rcases mem_loweredName hd with rfl | ⟨c, hc, rfl⟩
    · decide
    · exact isNameChar_toLower (h.isNameChar hc)

/-- The four properties whose attributes have names of their own, with these names. -/
def ownNames : List (String × String) :=
  [("className", "class"), ("htmlFor", "for"), ("httpEquiv", "http-equiv"),
    ("acceptCharset", "accept-charset")]

/-- The name of an attribute is one of its own, or the general rule gives it. -/
lemma attributeName_cases (property : String) :
    (property, attributeName property) ∈ ownNames ∨
      property ∉ ownNames.map Prod.fst ∧
        attributeName property = String.ofList (loweredName property.toList) := by
  rw [attributeName.eq_def]
  split
  · exact .inl (by decide)
  · exact .inl (by decide)
  · exact .inl (by decide)
  · exact .inl (by decide)
  · rename_i hclass hfor hequiv hcharset
    refine .inr ⟨?_, rfl⟩
    simpa [ownNames] using ⟨hclass, hfor, hequiv, hcharset⟩

/-- The name of an attribute is a name if the name of the property is one. -/
lemma IsName.attributeName {property : String} (h : IsName property) :
    IsName (attributeName property) := by
  have hown : ∀ p ∈ ownNames, IsName p.2 := by decide
  rcases attributeName_cases property with hmem | ⟨-, hgeneral⟩
  · exact hown _ hmem
  · rw [hgeneral]
    exact isName_ofList_loweredName h

end FencedCode.Markup
