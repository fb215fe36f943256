import FencedCode.Proofs.Decoding.Lenient

/-!
# Values that stand on their own

A value that stands on its own is read strictly: it has to have one of four forms, which are
tried one after the other.  No value has two of them, so the order makes no difference, and
the form that a value has is what the value describes, `ofJsonStrict?_eq_some_iff`.  Members of
a property map are read leniently, and the two conversions differ on the arrays only that have
a number or a truth value among their items.  The main result is `ofJsonStrict?_agrees`.
-/

namespace FencedCode.PropertyValue

/-- An array with an item that is a number or a truth value. -/
inductive IsLoose : Json → Prop where
  | number {items : List Json} {n : JsonNumber} (h : .number n ∈ items) : IsLoose (.array items)
  | bool {items : List Json} {b : Bool} (h : .bool b ∈ items) : IsLoose (.array items)

/-! ## Arrays of strings -/

lemma stringText?_eq_some_iff {j : Json} {s : String} :
    stringText? j = some s ↔ j = .string s := by
  cases j <;> simp [stringText?]

/-- The texts are those of the strings that the array is made of. -/
lemma mapM_stringText?_eq_some_iff {items : List Json} {texts : List String} :
    items.mapM stringText? = some texts ↔ items = texts.map .string := by
  simp only [mapM_eq_some_iff, stringText?_eq_some_iff]
  rw [← List.forall₂_map_right_iff (R := Eq), List.forall₂_eq_eq_eq]

/-- The text of a string is the string. -/
lemma forall₂_itemText_strings (texts : List String) :
    List.Forall₂ ItemText (texts.map .string) texts := by
  rw [List.forall₂_map_left_iff, List.forall₂_same]
  exact fun s _ => .string s

lemma not_isLoose_strings (texts : List String) : ¬IsLoose (.array (texts.map .string)) := by
  intro h
  cases h with
  | number h => simp at h
  | bool h => simp at h

/-- Items that have texts are strings unless the array is loose. -/
lemma eq_map_string {items : List Json} {texts : List String}
    (h : List.Forall₂ ItemText items texts) (hloose : ¬IsLoose (.array items)) :
    items = texts.map .string := by
  induction h with
  | nil => rfl
  | cons hitem _ ih =>
    have hrest := ih fun hrest => hloose (by
      cases hrest with
      | number h => exact .number (List.mem_cons_of_mem _ h)
      | bool h => exact .bool (List.mem_cons_of_mem _ h))
    cases hitem with
    | string s => rw [hrest, List.map_cons]
    | number _ => exact absurd (.number List.mem_cons_self) hloose
    | bool b => exact absurd (.bool List.mem_cons_self) hloose

/-! ## The forms -/

/-- Each form of a value is what the value describes. -/
lemma describes_of_mem_forms {form : Json → Option PropertyValue} (hform : form ∈ forms)
    {j : Json} {v : PropertyValue} (h : form j = some v) : Describes j v ∧ ¬IsLoose j := by
  simp only [forms, List.mem_cons, List.not_mem_nil, or_false] at hform
  rcases hform with rfl | rfl | rfl | rfl
  · cases j with
    | bool b => cases h; exact ⟨.bool b, nofun⟩
    | null | number _ | string _ | array _ | object _ => cases h
  · cases j with
    | number n => cases h; exact ⟨.number n, nofun⟩
    | null | bool _ | string _ | array _ | object _ => cases h
  · cases j with
    | string s => cases h; exact ⟨.string s, nofun⟩
    | null | bool _ | number _ | array _ | object _ => cases h
  · cases j with
    | array items =>
      obtain ⟨texts, htexts, rfl⟩ := Option.map_eq_some_iff.1 h
      rw [mapM_stringText?_eq_some_iff.1 htexts]
      exact ⟨.array (forall₂_itemText_strings texts), not_isLoose_strings texts⟩
    | null | bool _ | number _ | string _ | object _ => cases h

/-- What a value describes is one of its forms unless it is a loose array. -/
lemma exists_form {j : Json} {v : PropertyValue} (h : Describes j v) (hloose : ¬IsLoose j) :
    ∃ form ∈ forms, form j = some v := by
  cases h with
  | bool b => exact ⟨ofBool?, by simp [forms], rfl⟩
  | number n => exact ⟨ofNumber?, by simp [forms], rfl⟩
  | string s => exact ⟨ofString?, by simp [forms], rfl⟩
  | array h =>
    have htexts := mapM_stringText?_eq_some_iff.2 (eq_map_string h hloose)
    exact ⟨ofStrings?, by simp [forms], by rw [ofStrings?, htexts, Option.map_some]⟩

/-- The strict conversion of a value gives what the value describes, and none for a loose
array. -/
lemma ofJsonStrict?_eq_some_iff {j : Json} {v : PropertyValue} :
    ofJsonStrict? j = some v ↔ Describes j v ∧ ¬IsLoose j := by
  have hsound : ∀ {w}, ofJsonStrict? j = some w → Describes j w ∧ ¬IsLoose j := by
    intro w hw
    obtain ⟨form, hform, hvalue⟩ := List.exists_of_findSome?_eq_some hw
    exact describes_of_mem_forms hform hvalue
  refine ⟨hsound, fun ⟨hdescribes, hloose⟩ => ?_⟩
  obtain ⟨form, hform, hvalue⟩ := exists_form hdescribes hloose
  have hsome : (ofJsonStrict? j).isSome :=
    List.findSome?_isSome_iff.2 ⟨form, hform, by rw [hvalue]; rfl⟩
  -- An earlier form may be the one that is taken, but a value describes one value only.
  obtain ⟨w, hw⟩ := Option.isSome_iff_exists.1 hsome
  have hsame := ofJson?_eq_some_iff.2 (hsound hw).1
  rw [ofJson?_eq_some_iff.2 hdescribes] at hsame
  rw [hw, hsame]

/-! ## The main result -/

/-- **The strict and the lenient conversion agree.**  What the strict conversion makes of a
value the lenient one makes of it too, and the strict one takes a value exactly if the lenient
one does and the value is no array with a number or a truth value among its items. -/
theorem ofJsonStrict?_agrees (j : Json) :
    (∀ v, ofJsonStrict? j = some v → ofJson? j = some v) ∧
      ((∃ v, ofJsonStrict? j = some v) ↔ (∃ v, ofJson? j = some v) ∧ ¬IsLoose j) := by
  simp only [ofJsonStrict?_eq_some_iff, ofJson?_eq_some_iff]
  exact ⟨fun v h => h.1, exists_and_right⟩

/-- An array of strings is taken by both conversions, and with a number among them by the
lenient one only. -/
theorem ofJsonStrict?_agrees_items :
    ofJson? (.array [.string "a", .string "1"]) = some (list ["a", "1"]) ∧
      ofJsonStrict? (.array [.string "a", .number (.integer 1)]) = none ∧
      ofJson? (.array [.string "a", .number (.integer 1)]) = some (list ["a", "1"]) := by
  have hstrict : ofJsonStrict? (.array [.string "a", .string "1"]) = some (list ["a", "1"]) := rfl
  have hloose : IsLoose (.array [.string "a", .number (.integer 1)]) :=
    .number (List.mem_cons_of_mem _ List.mem_cons_self)
  refine ⟨(ofJsonStrict?_agrees _).1 _ hstrict, ?_, rfl⟩
  by_contra hsome
  exact ((ofJsonStrict?_agrees _).2.1 (Option.ne_none_iff_exists'.1 hsome)).2 hloose

end FencedCode.PropertyValue
