import FencedCode.Markup.Attribute
import Mathlib.Tactic.Lemma

/-!
# Reading escaped text

Replacing the references in an escaped text gives the text back, also when more text
follows, `unescape_escape_append`.  No character that could be taken for markup is left in
an escaped text, `lt_not_mem_escape`, `gt_not_mem_escape` and `quote_not_mem_escape`, and an
ampersand is left only as the first character of a reference, `exists_reference_of_escape_eq`.
The main result is `escape_exact`.
-/

namespace FencedCode.Markup

/-! ## References -/

lemma unescape_cons_of_ne {c : Char} (h : c ≠ '&') (rest : List Char) :
    unescape (c :: rest) = c :: unescape rest := by
  rw [unescape] <;> (intro _ hc; exact absurd hc h)

/-- An escaped character is read as the character, whatever follows it. -/
lemma unescape_escapedChar_append (place : Place) (c : Char) (rest : List Char) :
    unescape (escapedChar place c ++ rest) = c :: unescape rest := by
  rw [escapedChar.eq_def]
  split
  · rfl
  · rfl
  · rfl
  · cases place
    · exact unescape_cons_of_ne (by decide) rest
    · rfl
  · rename_i hamp _ _ _
    exact unescape_cons_of_ne hamp rest

lemma escape_append (place : Place) (s u : List Char) :
    escape place (s ++ u) = escape place s ++ escape place u :=
  List.flatMap_append

/-- An escaped text is read as the text, whatever follows it. -/
lemma unescape_escape_append (place : Place) (s rest : List Char) :
    unescape (escape place s ++ rest) = s ++ unescape rest := by
  induction s with
  | nil => rfl
  | cons c s ih =>
    rw [escape, List.flatMap_cons, List.append_assoc, unescape_escapedChar_append]
    exact congrArg (c :: ·) ih

lemma unescape_escape (place : Place) (s : List Char) : unescape (escape place s) = s := by
  have h := unescape_escape_append place s []
  simpa [unescape] using h

/-! ## Characters that are left -/

/-- The references. -/
def references : List (List Char) :=
  [['&', 'a', 'm', 'p', ';'], ['&', 'l', 't', ';'], ['&', 'g', 't', ';'],
    ['&', 'q', 'u', 'o', 't', ';']]

/-- The characters that references are made of. -/
def referenceChars : List Char :=
  ['&', 'a', 'm', 'p', 'l', 't', 'g', 'q', 'u', 'o', ';']

/-- A character is written as a reference, or as it stands and then it is no ampersand. -/
lemma escapedChar_mem_references (place : Place) (c : Char) :
    escapedChar place c ∈ references ∨ escapedChar place c = [c] ∧ c ≠ '&' := by
  rw [escapedChar.eq_def]
  split
  · exact .inl (by decide)
  · exact .inl (by decide)
  · exact .inl (by decide)
  · cases place
    · exact .inr ⟨rfl, by decide⟩
    · exact .inl (by decide)
  · rename_i hamp _ _ _
    exact .inr ⟨rfl, hamp⟩

/-- A character is written with the characters of references or as it stands. -/
lemma escapedChar_cases (place : Place) (c : Char) :
    escapedChar place c ⊆ referenceChars ∨ escapedChar place c = [c] := by
  have hchars : ∀ r ∈ references, r ⊆ referenceChars := by decide
  rcases escapedChar_mem_references place c with href | ⟨hself, -⟩
  · exact .inl (hchars _ href)
  · exact .inr hself

/-- A character that belongs to no reference and is not written as it stands does not occur
in an escaped text. -/
lemma not_mem_escape {place : Place} {d : Char} (href : d ∉ referenceChars)
    (hesc : escapedChar place d ≠ [d]) (s : List Char) : d ∉ escape place s := by
  intro h
  obtain ⟨c, -, hd⟩ := List.mem_flatMap.1 h
  rcases escapedChar_cases place c with hsub | hself
  · exact href (hsub hd)
  · rw [hself, List.mem_singleton] at hd
    exact hesc (hd ▸ hself)

/-- No tag, comment or document type starts inside an escaped text. -/
lemma lt_not_mem_escape (place : Place) (s : List Char) : '<' ∉ escape place s :=
  not_mem_escape (by decide) (by cases place <;> decide) s

/-- No tag ends inside an escaped text. -/
lemma gt_not_mem_escape (place : Place) (s : List Char) : '>' ∉ escape place s :=
  not_mem_escape (by decide) (by cases place <;> decide) s

/-- No value of an attribute ends inside an escaped one. -/
lemma quote_not_mem_escape (s : List Char) : '"' ∉ escape .attribute s :=
  not_mem_escape (by decide) (by decide) s

/-! ## Ampersands -/

/-- An ampersand in what is written for a character is the first character of a reference. -/
lemma mem_references_of_escapedChar_eq {place : Place} {c : Char} {front rest : List Char}
    (h : escapedChar place c = front ++ '&' :: rest) : '&' :: rest ∈ references := by
  have htail : ∀ r ∈ references, '&' ∉ r.tail := by decide
  rcases escapedChar_mem_references place c with href | ⟨hself, hamp⟩
  · rw [h] at href
    cases front with
    | nil => exact href
    | cons d front => exact absurd (by simp) (htail _ href)
  · have hmem : '&' ∈ [c] := by
      rw [← hself, h]
      simp
    exact absurd (List.mem_singleton.1 hmem).symm hamp

/-- Every ampersand in an escaped text starts a reference. -/
lemma exists_reference_of_escape_eq {place : Place} {s front rest : List Char}
    (h : escape place s = front ++ '&' :: rest) : ∃ r ∈ references, r <+: '&' :: rest := by
  induction s generalizing front with
  | nil => simp [escape] at h
  | cons c s ih =>
    have hparts : escapedChar place c ++ escape place s = front ++ '&' :: rest := h
    rcases List.append_eq_append_iff.1 hparts with ⟨mid, -, hs⟩ | ⟨mid, hc, hrest⟩
    · exact ih hs
    · cases mid with
      | nil =>
        have hs : escape place s = [] ++ '&' :: rest := hrest.symm
        exact ih hs
      | cons d mid =>
        obtain ⟨rfl, hback⟩ := List.cons.inj hrest
        refine ⟨'&' :: mid, mem_references_of_escapedChar_eq hc, ?_⟩
        rw [hback]
        exact List.prefix_append ('&' :: mid) (escape place s)

/-! ## The main result -/

/-- **Escaping is exact.**  Replacing the references in an escaped text from left to right gives
the text back; every ampersand in it starts a reference, and there is neither an angle bracket
in it nor, in the value of an attribute, a double quote.  Texts are escaped piece by piece, and
different texts are written differently.  So the value of an attribute is read from what stands
between its opening quote and the next quote, whatever follows. -/
theorem escape_exact (place : Place) (s : List Char) :
    unescape (escape place s) = s ∧
      (∀ front rest, escape place s = front ++ '&' :: rest →
        ∃ r ∈ references, r <+: '&' :: rest) ∧
      '<' ∉ escape place s ∧ '>' ∉ escape place s ∧
      (place = .attribute → '"' ∉ escape place s) ∧
      (∀ u, escape place (s ++ u) = escape place s ++ escape place u) ∧
      (∀ u, escape place u = escape place s → u = s) ∧
      ∀ (name : String) (rest : List Char), ∃ written,
        (Attribute.mk name (some (String.ofList s))).chars ++ rest =
            ' ' :: name.toList ++ '=' :: '"' :: (written ++ '"' :: rest) ∧
          '"' ∉ written ∧ unescape written = s := by
  refine ⟨unescape_escape place s, ?_, lt_not_mem_escape place s, gt_not_mem_escape place s,
    ?_, escape_append place s, ?_, ?_⟩
  · intro front rest h
    exact exists_reference_of_escape_eq h
  · rintro rfl
    exact quote_not_mem_escape s
  · intro u h
    rw [← unescape_escape place u, h, unescape_escape]
  · intro name rest
    refine ⟨escape .attribute s, ?_, quote_not_mem_escape s, unescape_escape .attribute s⟩
    simp [Attribute.chars]

/-- A text with a reference, the start of another one and a quote is read back, and what its
second ampersand is written as starts a reference. -/
theorem escape_exact_references :
    escape .attribute "&lt;&quot\"".toList = "&amp;lt;&amp;quot&quot;".toList ∧
      unescape (escape .attribute "&lt;&quot\"".toList) = "&lt;&quot\"".toList ∧
      (∃ r ∈ references, r <+: "&amp;quot&quot;".toList) ∧
      '"' ∉ escape .attribute "&lt;&quot\"".toList := by
  have hwritten : escape .attribute "&lt;&quot\"".toList =
      "&amp;lt;&amp;quot&quot;".toList := by decide
  have hamp : escape .attribute "&lt;&quot\"".toList =
      "&amp;lt;".toList ++ '&' :: "amp;quot&quot;".toList := by decide
  obtain ⟨hread, hreference, -, -, hquote, -⟩ :=
    escape_exact .attribute "&lt;&quot\"".toList
  exact ⟨hwritten, hread, hreference _ _ hamp, hquote rfl⟩

end FencedCode.Markup
