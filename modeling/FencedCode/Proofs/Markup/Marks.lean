import FencedCode.Proofs.Markup.Reader
import Mathlib.Data.List.Infix

/-!
# Looking for a mark

A reader finds the end of a comment, or of what is in a script, by looking for the first
occurrence of a mark.  `fromMark` and `afterMark` are what is left then, with and without the
mark.  A text is passed over if the mark does not start in it, `fromMark_append` and
`afterMark_append`; if the mark is in the text, what follows the text makes no difference,
`fromMark_append_of_isInfix` and `afterMark_append_of_isInfix`.  It remains that the mark starts
in the text and ends behind it, and then the text ends like a part of the mark,
`isPassed_or_isInfix`.
-/

namespace FencedCode.Markup

/-- What is left of a text from the first occurrence of a mark on; nothing if there is none. -/
def fromMark (mark : List Char) : List Char → List Char
  | [] => []
  | c :: rest => if mark.isPrefixOf (c :: rest) then c :: rest else fromMark mark rest

/-- What is left of a text behind the first occurrence of a mark; nothing if there is none. -/
def afterMark (mark cs : List Char) : List Char :=
  (fromMark mark cs).drop mark.length

/-- A mark does not start in a text when some other text follows. -/
def IsPassed (mark s back : List Char) : Prop :=
  ∀ u, u ≠ [] → u <:+ s → ¬mark <+: u ++ back

lemma fromMark_suffix (mark cs : List Char) : fromMark mark cs <:+ cs := by
  induction cs with
  | nil => exact List.suffix_refl _
  | cons c cs ih =>
    rw [fromMark]
    split
    · exact List.suffix_refl _
    · exact ih.trans (List.suffix_cons c cs)

/-! ## One character -/

lemma fromMark_of_isPrefix {mark cs : List Char} (hne : cs ≠ []) (h : mark <+: cs) :
    fromMark mark cs = cs := by
  obtain ⟨c, cs, rfl⟩ := List.exists_cons_of_ne_nil hne
  rw [fromMark, if_pos (List.isPrefixOf_iff_prefix.2 h)]

lemma fromMark_cons {mark : List Char} {c : Char} {cs : List Char}
    (h : ¬mark <+: c :: cs) : fromMark mark (c :: cs) = fromMark mark cs := by
  rw [fromMark, if_neg (mt List.isPrefixOf_iff_prefix.1 h)]

lemma afterMark_suffix (mark cs : List Char) : afterMark mark cs <:+ cs :=
  (List.drop_suffix _ _).trans (fromMark_suffix mark cs)

/-- Cutting a text at a mark leaves what is behind it. -/
lemma afterMark_of_cut? {mark cs front back : List Char}
    (h : cut? mark cs = some (front, back)) : afterMark mark cs = back := by
  induction cs generalizing front with
  | nil => cases h
  | cons c cs ih =>
    rw [cut?] at h
    split at h
    · rename_i hfront
      cases h
      rw [afterMark, fromMark, if_pos hfront]
    · rename_i hfront
      obtain ⟨⟨front, rest⟩, hcut, heq⟩ := Option.map_eq_some_iff.1 h
      cases heq
      rw [afterMark, fromMark, if_neg hfront]
      exact ih hcut

/-! ## A text without the mark -/

lemma IsPassed.not_isPrefix {mark s back : List Char} {c : Char}
    (h : IsPassed mark (c :: s) back) : ¬mark <+: c :: (s ++ back) :=
  h (c :: s) (List.cons_ne_nil c s) (List.suffix_refl _)

lemma IsPassed.tail {mark s back : List Char} {c : Char}
    (h : IsPassed mark (c :: s) back) : IsPassed mark s back :=
  fun u hne hu => h u hne (hu.trans (List.suffix_cons c s))

lemma fromMark_append {mark s back : List Char} (h : IsPassed mark s back) :
    fromMark mark (s ++ back) = fromMark mark back := by
  induction s with
  | nil => rfl
  | cons c s ih => rw [List.cons_append, fromMark_cons h.not_isPrefix, ih h.tail]

lemma afterMark_append {mark s back : List Char} (h : IsPassed mark s back) :
    afterMark mark (s ++ back) = afterMark mark back := by
  rw [afterMark, afterMark, fromMark_append h]

/-! ## A text with the mark -/

/-- A mark that is in a text starts in front of it only if it does so within the text. -/
lemma isPrefix_of_isInfix {mark f back : List Char} {c : Char}
    (hin : mark <:+: f) (h : mark <+: c :: f ++ back) : mark <+: c :: f :=
  List.prefix_of_prefix_length_le h (List.prefix_append _ _)
    (hin.length_le.trans (Nat.le_succ _))

lemma fromMark_append_of_isInfix {mark f : List Char} (hne : mark ≠ []) (h : mark <:+: f)
    (back : List Char) : fromMark mark (f ++ back) = fromMark mark f ++ back := by
  induction f with
  | nil => exact absurd (List.infix_nil.1 h) hne
  | cons c f ih =>
    by_cases hfront : mark <+: c :: f
    · rw [fromMark_of_isPrefix (List.cons_ne_nil c f) hfront]
      exact fromMark_of_isPrefix (List.cons_ne_nil c _) (hfront.trans (List.prefix_append _ _))
    · have hin : mark <:+: f := (List.infix_cons_iff.1 h).resolve_left hfront
      have hnot : ¬mark <+: c :: (f ++ back) :=
        fun hlong => hfront (isPrefix_of_isInfix hin hlong)
      rw [List.cons_append, fromMark_cons hnot, fromMark_cons hfront, ih hin]

/-- If the mark is in a text, then it is in front of what is left. -/
lemma prefix_fromMark {mark f : List Char} (hne : mark ≠ []) (h : mark <:+: f) :
    mark <+: fromMark mark f := by
  induction f with
  | nil => exact absurd (List.infix_nil.1 h) hne
  | cons c f ih =>
    by_cases hfront : mark <+: c :: f
    · rwa [fromMark_of_isPrefix (List.cons_ne_nil c f) hfront]
    · rw [fromMark_cons hfront]
      exact ih ((List.infix_cons_iff.1 h).resolve_left hfront)

lemma afterMark_append_of_isInfix {mark f : List Char} (hne : mark ≠ []) (h : mark <:+: f)
    (back : List Char) : afterMark mark (f ++ back) = afterMark mark f ++ back := by
  rw [afterMark, fromMark_append_of_isInfix hne h, afterMark,
    List.drop_append_of_le_length (prefix_fromMark hne h).length_le]

/-! ## Across the end of a text -/

/-- A mark in front of two texts is in the first one, or it is the first one and a start of
the second one. -/
lemma prefix_append_cases {mark u back : List Char} (h : mark <+: u ++ back) :
    mark <+: u ∨ ∃ m, m ≠ [] ∧ mark = u ++ m ∧ m <+: back := by
  obtain ⟨t, ht⟩ := h
  rcases List.append_eq_append_iff.1 ht with ⟨v, hu, -⟩ | ⟨m, hmark, hback⟩
  · exact .inl ⟨v, hu.symm⟩
  · by_cases hm : m = []
    · exact .inl ⟨[], by rw [hmark, hm, List.append_nil, List.append_nil]⟩
    · exact .inr ⟨m, hm, hmark, ⟨t, hback.symm⟩⟩

/-- A mark is in a text, or it is passed unless the text ends like a part of the mark. -/
lemma isPassed_or_isInfix {mark s back : List Char}
    (h : ∀ u m, u ≠ [] → u <:+ s → m ≠ [] → m <+: back → mark ≠ u ++ m) :
    IsPassed mark s back ∨ mark <:+: s := by
  by_cases hin : mark <:+: s
  · exact .inr hin
  · refine .inl fun u hne hu hfront => ?_
    rcases prefix_append_cases hfront with hinside | ⟨m, hm, hmark, hback⟩
    · exact hin (hinside.isInfix.trans hu.isInfix)
    · exact h u m hne hu hm hback hmark

end FencedCode.Markup
