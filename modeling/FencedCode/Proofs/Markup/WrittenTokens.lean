import FencedCode.Markup.Html
import FencedCode.Proofs.Markup.Escaping
import FencedCode.Proofs.Text.Words

/-!
# Tokens in the HTML

A reader of HTML takes the value of an attribute, replaces its references and splits it at
blanks.  What it gets from a text are the tokens of the text.  From a list it gets the items
only if each is a word on its own, since the items are joined with spaces.  The main result is
`words_written_iff`.
-/

namespace FencedCode

namespace PropertyValue

/-- What is written into a tag for a property. -/
def attributeChars (name : String) (v : PropertyValue) : List Char :=
  match v.attributeValue? with
  | none => []
  | some value => Markup.Attribute.chars ⟨Markup.attributeName name, value⟩

/-- The text that the attribute of a text or of a list stands for. -/
def joined : PropertyValue → String
  | text s => s
  | list items => " ".intercalate items
  | _ => ""

/-- A start tag is made of its name and of what is written for the properties. -/
lemma startTag_eq (tag : String) (p : Properties) :
    Markup.startTag tag p =
      '<' :: tag.toList ++ p.entries.flatMap (fun e => attributeChars e.1 e.2) ++ ['>'] := by
  have hwritten : ∀ entries : List (String × PropertyValue),
      (entries.filterMap fun e => e.2.attributeValue?.map fun value =>
          (⟨Markup.attributeName e.1, value⟩ : Markup.Attribute)).flatMap Markup.Attribute.chars =
        entries.flatMap fun e => attributeChars e.1 e.2 := by
    intro entries
    induction entries with
    | nil => rfl
    | cons e rest ih =>
      rw [List.flatMap_cons, ← ih, attributeChars, List.filterMap_cons]
      cases e.2.attributeValue? with
      | none => rfl
      | some value => rfl
  rw [Markup.startTag, Properties.attributes, hwritten]

/-- A text or a list is written between quotes. -/
lemma attributeChars_eq {v : PropertyValue} (h : v.isScalar = false) (name : String) :
    attributeChars name v = ' ' :: (Markup.attributeName name).toList ++
      '=' :: '"' :: Markup.escape .attribute v.joined.toList ++ ['"'] := by
  cases v with
  | flag on => cases h
  | number x => cases h
  | text s => simp [attributeChars, attributeValue?, Markup.Attribute.chars, joined]
  | list items => simp [attributeChars, attributeValue?, Markup.Attribute.chars, joined]

/-- The words of what is written are the tokens of a text, and those of a list if its items are
words. -/
lemma words_joined_eq_iff {v : PropertyValue} (h : v.isScalar = false) :
    v.tokens? = some (Text.words v.joined) ↔
      (∃ s, v = text s) ∨ ∃ items, v = list items ∧ ∀ w ∈ items, Text.IsWord w := by
  cases v with
  | flag on => cases h
  | number x => cases h
  | text s => exact iff_of_true rfl (.inl ⟨s, rfl⟩)
  | list items => simp [tokens?, joined, eq_comm (a := items), Text.words_intercalate_eq_iff]

/-- **Tokens in the HTML.**  A start tag is made of what is written for the properties, and for
a text or a list this is the name of the attribute and a value between quotes, without a quote
inside.  The non-empty parts between the blanks of this value, its references replaced, are the
tokens of the property exactly if it is a text or a list of words. -/
theorem words_written_iff {v : PropertyValue} (h : v.isScalar = false) (name : String) :
    (∀ tag p, Markup.startTag tag p =
        '<' :: tag.toList ++ p.entries.flatMap (fun e => attributeChars e.1 e.2) ++ ['>']) ∧
      ∃ written, '"' ∉ written ∧
        attributeChars name v = ' ' :: (Markup.attributeName name).toList ++
          '=' :: '"' :: written ++ ['"'] ∧
        (v.tokens? = some (Text.parts (String.ofList (Markup.unescape written))) ↔
          (∃ s, v = text s) ∨ ∃ items, v = list items ∧ ∀ w ∈ items, Text.IsWord w) := by
  refine ⟨startTag_eq, Markup.escape .attribute v.joined.toList,
    Markup.quote_not_mem_escape _, attributeChars_eq h name, ?_⟩
  rw [Markup.unescape_escape, String.ofList_toList, ← Text.words_eq_parts]
  exact words_joined_eq_iff h

/-- A list with a blank in one of its items and with an empty item is not read back, whereas
an item with characters that are written as references is. -/
theorem words_written_iff_items :
    (list ["a b", ""]).isScalar = false ∧ (list ["a&b", "\"c\""]).isScalar = false ∧
      (∃ written, attributeChars "className" (list ["a b", ""]) =
          " class=\"".toList ++ written ++ ['"'] ∧
        (list ["a b", ""]).tokens? ≠ some (Text.parts (String.ofList (Markup.unescape written)))) ∧
      ∃ written, attributeChars "className" (list ["a&b", "\"c\""]) =
          " class=\"".toList ++ written ++ ['"'] ∧
        (list ["a&b", "\"c\""]).tokens? =
          some (Text.parts (String.ofList (Markup.unescape written))) := by
  have hblank : (list ["a b", ""]).isScalar = false := rfl
  have hplain : (list ["a&b", "\"c\""]).isScalar = false := rfl
  refine ⟨hblank, hplain, ?_, ?_⟩
  · obtain ⟨-, written, -, hwritten, hiff⟩ := words_written_iff hblank "className"
    refine ⟨written, hwritten, fun h => ?_⟩
    rcases hiff.1 h with ⟨s, hs⟩ | ⟨items, hitems, hwords⟩
    · cases hs
    · cases hitems
      exact (hwords "" (by simp)).1 rfl
  · obtain ⟨-, written, -, hwritten, hiff⟩ := words_written_iff hplain "className"
    have hwords : ∀ w ∈ ["a&b", "\"c\""], Text.IsWord w := by decide +kernel
    exact ⟨written, hwritten, hiff.2 (.inr ⟨_, rfl, hwords⟩)⟩

end PropertyValue

end FencedCode
