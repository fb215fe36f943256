import FencedCode.Proofs.Json.FiniteNumbers
import FencedCode.Proofs.Json.Scalars
import FencedCode.Proofs.NameMap
import FencedCode.Tree.Decode

/-!
# Properties are read leniently

What a value says about a property is written down here as a relation, `Describes`, apart
from how it is decoded.  Decoding properties never fails, and a name has the value that the
last member with this name describes, `Properties.get?_ofMembers_eq_some_iff`.  Numbers that
are read are finite, and only a number that is not would have no text in a list.
-/

namespace FencedCode

namespace PropertyValue

/-- The text that an item of a list is. -/
inductive ItemText : Json → String → Prop where
  | string (s : String) : ItemText (.string s) s
  | number {n : JsonNumber} {text : List Char} (h : n.chars? = some text) :
      ItemText (.number n) (String.ofList text)
  | bool (b : Bool) : ItemText (.bool b) (if b then "true" else "false")

/-- The value that a JSON value describes: truth values, numbers and strings describe
themselves, and an array describes the list of the texts of its items. -/
inductive Describes : Json → PropertyValue → Prop where
  | bool (b : Bool) : Describes (.bool b) (flag b)
  | number (n : JsonNumber) : Describes (.number n) (PropertyValue.number n.toDouble)
  | string (s : String) : Describes (.string s) (text s)
  | array {items : List Json} {texts : List String} (h : List.Forall₂ ItemText items texts) :
      Describes (.array items) (list texts)

/-- A value that stands for several values or for none. -/
def IsCompound : Json → Prop
  | .null => True
  | .array _ => True
  | .object _ => True
  | _ => False

/-- A value that no property can have: `null`, an object, or an array with an item that is
`null`, an array or an object. -/
inductive IsDropped : Json → Prop where
  | null : IsDropped .null
  | object (members : List (String × Json)) : IsDropped (.object members)
  | array {items : List Json} {j : Json} (hj : j ∈ items) (h : IsCompound j) :
      IsDropped (.array items)

/-! ## The conversion -/

lemma itemText?_eq_some_iff {j : Json} {s : String} : itemText? j = some s ↔ ItemText j s := by
  constructor
  · intro h
    cases j with
    | string t =>
      obtain rfl := Option.some.inj h
      exact .string t
    | number n =>
      obtain ⟨text, htext, rfl⟩ := Option.map_eq_some_iff.1 h
      exact .number htext
    | bool b =>
      obtain rfl := Option.some.inj h
      exact .bool b
    | null => cases h
    | array items => cases h
    | object members => cases h
  · intro h
    cases h with
    | string s => rfl
    | number h => rw [itemText?, h, Option.map_some]
    | bool b => rfl

lemma mapM_itemText?_eq_some_iff {items : List Json} {texts : List String} :
    items.mapM itemText? = some texts ↔ List.Forall₂ ItemText items texts := by
  simp only [mapM_eq_some_iff, itemText?_eq_some_iff]

/-- The conversion of a value gives what the value describes. -/
lemma ofJson?_eq_some_iff {j : Json} {v : PropertyValue} : ofJson? j = some v ↔ Describes j v := by
  constructor
  · intro h
    cases j with
    | bool b =>
      obtain rfl := Option.some.inj h
      exact .bool b
    | number n =>
      obtain rfl := Option.some.inj h
      exact .number n
    | string s =>
      obtain rfl := Option.some.inj h
      exact .string s
    | array items =>
      obtain ⟨texts, htexts, rfl⟩ := Option.map_eq_some_iff.1 h
      exact .array (mapM_itemText?_eq_some_iff.1 htexts)
    | null => cases h
    | object members => cases h
  · intro h
    cases h with
    | bool b => rfl
    | number n => rfl
    | string s => rfl
    | array h => rw [ofJson?, mapM_itemText?_eq_some_iff.2 h, Option.map_some]

/-! ## What is dropped -/

/-- A finite number has a text. -/
lemma exists_chars {n : JsonNumber} (h : n.toDouble.isFinite = true) :
    ∃ text, n.chars? = some text := by
  cases n with
  | integer n => exact ⟨_, rfl⟩
  | float x =>
    cases x with
    | finite negative size => exact ⟨_, rfl⟩
    | infinity negative => cases h
    | nan => cases h

lemma exists_itemText_iff {j : Json} (h : j.AllFinite) :
    (∃ s, ItemText j s) ↔ ¬IsCompound j := by
  cases h with
  | null => exact iff_of_false (by rintro ⟨s, ⟨⟩⟩) (by simp [IsCompound])
  | bool b => exact iff_of_true ⟨_, .bool b⟩ (by simp [IsCompound])
  | number h =>
    obtain ⟨text, htext⟩ := exists_chars h
    exact iff_of_true ⟨_, .number htext⟩ (by simp [IsCompound])
  | string s => exact iff_of_true ⟨_, .string s⟩ (by simp [IsCompound])
  | array h => exact iff_of_false (by rintro ⟨s, ⟨⟩⟩) (by simp [IsCompound])
  | object h => exact iff_of_false (by rintro ⟨s, ⟨⟩⟩) (by simp [IsCompound])

lemma exists_forall₂_itemText {items : List Json} (h : ∀ j ∈ items, j.AllFinite) :
    (∃ texts, List.Forall₂ ItemText items texts) ↔ ∀ j ∈ items, ¬IsCompound j := by
  induction items with
  | nil => exact iff_of_true ⟨[], .nil⟩ (by simp)
  | cons j rest ih =>
    obtain ⟨hj, hrest⟩ := List.forall_mem_cons.1 h
    rw [List.forall_mem_cons, ← exists_itemText_iff hj, ← ih hrest]
    constructor
    · rintro ⟨_, _ | ⟨hs, hothers⟩⟩
      exact ⟨⟨_, hs⟩, _, hothers⟩
    · rintro ⟨⟨s, hs⟩, others, hothers⟩
      exact ⟨s :: others, .cons hs hothers⟩

/-- A value with finite numbers describes none exactly if it is dropped. -/
lemma not_exists_describes_iff {j : Json} (h : j.AllFinite) :
    (∀ v, ¬Describes j v) ↔ IsDropped j := by
  cases h with
  | null => exact iff_of_true (by rintro v ⟨⟩) .null
  | bool b => exact iff_of_false (fun h => h _ (.bool b)) (by rintro ⟨⟩)
  | number _ => exact iff_of_false (fun h => h _ (.number _)) (by rintro ⟨⟩)
  | string s => exact iff_of_false (fun h => h _ (.string s)) (by rintro ⟨⟩)
  | array hitems =>
    rename_i items
    -- One item without a text is enough to drop the whole array.
    have hexists : (∃ v, Describes (.array items) v) ↔ ∀ j ∈ items, ¬IsCompound j := by
      rw [← exists_forall₂_itemText hitems]
      constructor
      · rintro ⟨v, ⟨⟩⟩
        exact ⟨_, ‹_›⟩
      · rintro ⟨texts, htexts⟩
        exact ⟨_, .array htexts⟩
    rw [← not_exists, hexists]
    constructor
    · intro h
      simp only [not_forall, not_not] at h
      obtain ⟨j, hj, hcompound⟩ := h
      exact .array hj hcompound
    · intro hdropped h
      cases hdropped with
      | array hj hcompound => exact h _ hj hcompound
  | object _ => exact iff_of_true (by rintro v ⟨⟩) (.object _)

end PropertyValue

/-! ## Properties -/

/-- A name has the value that the last member with this name describes. -/
theorem Properties.get?_ofMembers_eq_some_iff {members : List (String × Json)} {name : String}
    {v : PropertyValue} :
    (Properties.ofMembers members).get? name = some v ↔
      ∃ before j after, members = before ++ (name, j) :: after ∧
        (∀ m ∈ after, m.1 ≠ name) ∧ PropertyValue.Describes j v := by
  rw [Properties.ofMembers, NameMap.get?_filterMap, Option.bind_eq_some_iff]
  simp only [NameMap.get?_ofList_eq_some_iff, PropertyValue.ofJson?_eq_some_iff]
  constructor
  · rintro ⟨j, ⟨before, after, hmembers, hafter⟩, hj⟩
    exact ⟨before, j, after, hmembers, hafter, hj⟩
  · rintro ⟨before, j, after, hmembers, hafter, hj⟩
    exact ⟨j, ⟨before, after, hmembers, hafter⟩, hj⟩

/-- The value of one property says nothing about the others. -/
lemma Properties.get?_ofMembers_of_ne {name other : String} (h : other ≠ name)
    (before after : List (String × Json)) (j j' : Json) :
    (Properties.ofMembers (before ++ (name, j) :: after)).get? other =
      (Properties.ofMembers (before ++ (name, j') :: after)).get? other := by
  rw [Properties.ofMembers, Properties.ofMembers, NameMap.get?_filterMap,
    NameMap.get?_filterMap, NameMap.get?_ofList_of_ne h before after j j']

end FencedCode
