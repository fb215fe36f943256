import FencedCode.Proofs.Markup.Names
import Mathlib.Data.Set.Function

/-!
# Names of attributes as normal forms

The name of an attribute has no capital in it, and exactly the names without capitals stay as
they are, `attributeName_eq_self_iff`.  So the names of attributes are a normal form of the
names of properties.  Different properties may become the same attribute, but not if their
names are in camel case behind `data`: each hyphen then stands in front of a letter that was a
capital, and making it one again gives the name of the property, `camelName_attributeName`.
The main result is `attributeName_normalForm`.
-/

namespace FencedCode.Markup

/-! ## Capitals and small letters -/

lemma isLower_iff {c : Char} : c.isLower = true ↔ 97 ≤ c.toNat ∧ c.toNat ≤ 122 := by
  have hrange : c.isLower = true ↔ 'a'.val ≤ c.val ∧ c.val ≤ 'z'.val :=
    Bool.and_eq_true_iff.trans (and_congr decide_eq_true_iff decide_eq_true_iff)
  exact hrange.trans (and_congr UInt32.le_iff_toNat_le UInt32.le_iff_toNat_le)

lemma isUpper_toLower (c : Char) : c.toLower.isUpper = false := by
  rw [Bool.eq_false_iff]
  by_cases h : c.isUpper = true
  · intro hupper
    have hsmall := toNat_toLower_of_isUpper h
    have hcapital := isUpper_iff.1 hupper
    omega
  · rwa [toLower_of_not_isUpper h]

/-- The capitals stand 32 places in front of the small letters. -/
lemma toNat_toUpper {c : Char} (h : c.isLower = true) : c.toUpper.toNat = c.toNat - 32 := by
  obtain ⟨hlow, hhigh⟩ := isLower_iff.1 h
  have hrange : 'a'.val ≤ c.val ∧ c.val ≤ 'z'.val :=
    ⟨UInt32.le_iff_toNat_le.2 hlow, UInt32.le_iff_toNat_le.2 hhigh⟩
  -- The distance is negative, and so the sum wraps around.
  have hdistance : ('A'.val - 'a'.val).toNat = 2 ^ 32 - 32 := by decide
  obtain ⟨_, hvalue⟩ : ∃ hvalid, c.toUpper = ⟨c.val + ('A'.val - 'a'.val), hvalid⟩ :=
    ⟨_, dif_pos hrange⟩
  rw [hvalue, ← Char.toNat_val, UInt32.toNat_add, hdistance, Char.toNat_val]
  omega

/-- A capital is the capital of its small letter. -/
lemma toUpper_toLower {c : Char} (h : c.isUpper = true) : c.toLower.toUpper = c := by
  have hlower : c.toLower.isLower = true := isLower_iff.2 (toNat_toLower_of_isUpper h)
  rw [← Char.toNat_inj, toNat_toUpper hlower, toNat_toLower h]
  omega

/-! ## Names without capitals -/

/-- A name in lower case: none of its characters is a capital. -/
def IsLowered (name : String) : Prop :=
  ∀ c ∈ name.toList, c.isUpper = false

instance (name : String) : Decidable (IsLowered name) :=
  List.decidableBAll (fun c : Char => c.isUpper = false) name.toList

/-- The name of an attribute is in lower case. -/
lemma isLowered_attributeName (property : String) : IsLowered (attributeName property) := by
  have hown : ∀ p ∈ ownNames, IsLowered p.2 := by decide
  rcases attributeName_cases property with hmem | ⟨-, hgeneral⟩
  · exact hown _ hmem
  · intro d hd
    rw [hgeneral, String.toList_ofList] at hd
    rcases mem_loweredName hd with rfl | ⟨c, -, rfl⟩
    · rfl
    · exact isUpper_toLower c

/-- The general rule changes nothing in a name without capitals. -/
lemma loweredName_eq_self {cs : List Char} (h : ∀ c ∈ cs, c.isUpper = false) :
    loweredName cs = cs := by
  have hlower : cs.map Char.toLower = cs := by
    conv_rhs => rw [← List.map_id cs]
    refine List.map_congr_left fun c hc => ?_
    exact toLower_of_not_isUpper (Bool.eq_false_iff.1 (h c hc))
  rw [loweredName.eq_def]
  split
  · rename_i c rest
    have hc : ¬c.isUpper = true := Bool.eq_false_iff.1 (h c (by simp))
    rw [if_neg hc, hlower]
  · exact hlower

/-- Exactly the names in lower case are the names of attributes that they become. -/
lemma attributeName_eq_self_iff (property : String) :
    attributeName property = property ↔ IsLowered property := by
  constructor
  · intro h
    rw [← h]
    exact isLowered_attributeName property
  · intro h
    have hown : ∀ p ∈ ownNames, ¬IsLowered p.1 := by decide
    rcases attributeName_cases property with hmem | ⟨-, hgeneral⟩
    · exact absurd h (hown _ hmem)
    · rw [hgeneral, loweredName_eq_self h, String.ofList_toList]

/-! ## Names in camel case -/

/-- A text with each small letter behind a hyphen made a capital, in place of both. -/
def camelCased : List Char → List Char
  | '-' :: c :: rest =>
    if c.isLower then c.toUpper :: camelCased rest else '-' :: camelCased (c :: rest)
  | c :: rest => c :: camelCased rest
  | [] => []

/-- The name in camel case of a hyphenated name. -/
def camelName (name : String) : String :=
  String.ofList (camelCased name.toList)

/-- A name in camel case behind `data`: a capital follows, and there are no hyphens. -/
structure IsCamelData (property : String) : Prop where
  exists_capital : ∃ c rest, property.toList = 'd' :: 'a' :: 't' :: 'a' :: c :: rest ∧
    c.isUpper = true
  hyphen_not_mem : '-' ∉ property.toList

lemma camelCased_cons_of_ne {c : Char} (h : c ≠ '-') (rest : List Char) :
    camelCased (c :: rest) = c :: camelCased rest := by
  rw [camelCased]
  intro _ _ hc
  exact absurd hc h

/-- A character is found again in what is written for it, whatever follows. -/
lemma camelCased_hyphenated_append {c : Char} (h : c ≠ '-') (rest : List Char) :
    camelCased (hyphenated c ++ rest) = c :: camelCased rest := by
  rw [hyphenated]
  split
  · rename_i hupper
    have hlower : c.toLower.isLower = true := isLower_iff.2 (toNat_toLower_of_isUpper hupper)
    rw [List.cons_append, List.singleton_append, camelCased, if_pos hlower,
      toUpper_toLower hupper]
  · exact camelCased_cons_of_ne h rest

lemma camelCased_flatMap_hyphenated {cs : List Char} (h : '-' ∉ cs) :
    camelCased (cs.flatMap hyphenated) = cs := by
  induction cs with
  | nil => rfl
  | cons c cs ih =>
    have hc : c ≠ '-' := (List.ne_of_not_mem_cons h).symm
    rw [List.flatMap_cons, camelCased_hyphenated_append hc, ih (List.not_mem_of_not_mem_cons h)]

/-- The letters of `data` are not changed, and the capital behind them is hyphenated, too. -/
lemma attributeName_eq_hyphenated {property : String} (h : IsCamelData property) :
    attributeName property = String.ofList (property.toList.flatMap hyphenated) := by
  obtain ⟨c, rest, hdata, hc⟩ := h.exists_capital
  have hfirst : property.toList.head? = some 'd' := by rw [hdata, List.head?_cons]
  have hown : ∀ p ∈ ownNames, p.1.toList.head? ≠ some 'd' := by decide
  rcases attributeName_cases property with hmem | ⟨-, hgeneral⟩
  · exact absurd hfirst (hown _ hmem)
  · rw [hgeneral, hdata, loweredName, if_pos hc]
    rfl

/-- The name of a property in camel case is found again in the name of its attribute. -/
lemma camelName_attributeName {property : String} (h : IsCamelData property) :
    camelName (attributeName property) = property := by
  rw [attributeName_eq_hyphenated h, camelName, String.toList_ofList,
    camelCased_flatMap_hyphenated h.hyphen_not_mem, String.ofList_toList]

/-! ## The main result -/

/-- **Names of attributes are normal forms.**  The name of an attribute is in lower case and
becomes itself as the name of a property, as do all names in lower case and no others.  For
properties whose names are in camel case behind `data`, the name of the property is found again
in the name of the attribute by making the letters behind hyphens capitals; so no two of them
become the same attribute. -/
theorem attributeName_normalForm :
    (∀ property, IsLowered (attributeName property) ∧
      attributeName (attributeName property) = attributeName property ∧
      (attributeName property = property ↔ IsLowered property)) ∧
    Set.LeftInvOn camelName attributeName {property | IsCamelData property} ∧
    Set.InjOn attributeName {property | IsCamelData property} := by
  have hinverse : Set.LeftInvOn camelName attributeName {property | IsCamelData property} :=
    fun _ h => camelName_attributeName h
  refine ⟨fun property => ?_, hinverse, hinverse.injOn⟩
  have hlowered : IsLowered (attributeName property) := isLowered_attributeName property
  exact ⟨hlowered, (attributeName_eq_self_iff _).2 hlowered, attributeName_eq_self_iff property⟩

/-- A name in camel case with a capital at its end and with a letter that has no case here is
found again, and the name of its attribute stays as it is. -/
theorem attributeName_normalForm_camelData :
    IsCamelData "dataCodeÉX" ∧ attributeName "dataCodeÉX" = "data-codeÉ-x" ∧
      camelName "data-codeÉ-x" = "dataCodeÉX" ∧
      attributeName "data-codeÉ-x" = "data-codeÉ-x" := by
  have hcamel : IsCamelData "dataCodeÉX" :=
    ⟨⟨'C', "odeÉX".toList, by decide, by decide⟩, by decide⟩
  have hname : attributeName "dataCodeÉX" = "data-codeÉ-x" := by decide
  obtain ⟨hform, hinverse, -⟩ := attributeName_normalForm
  refine ⟨hcamel, hname, ?_, ?_⟩
  · rw [← hname]
    exact hinverse hcamel
  · rw [← hname]
    exact (hform "dataCodeÉX").2.1

end FencedCode.Markup
