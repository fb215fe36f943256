import FencedCode.Proofs.Markup.Tags

/-!
# Texts that are read alike

A reader can come to a text from between tags, but also from inside a comment or a script that
did not end where it should.  Two texts are read alike if the reader finds the same tags in
them in each case, `ReadAlike`.  They are still read alike with the same text in front of both
if that text ends with a closing bracket, `ReadAlike.append`: the reader comes out of it in one
of the three ways.  Escaped text in front of one of them makes no difference,
`ReadAlike.append_left`, and neither do the values of the attributes of a tag in front,
`ReadAlike.opening`.
-/

namespace FencedCode.Markup

/-- A reader finds the same tags in two texts, also if it comes from a comment or from a
script or a style sheet. -/
structure ReadAlike (cs ds : List Char) : Prop where
  outside : tagsIn cs = tagsIn ds
  comment : tagsIn (afterMark commentEnd cs) = tagsIn (afterMark commentEnd ds)
  raw : ∀ tag, isRawText tag = true →
    tagsIn (fromMark (endMark tag) cs) = tagsIn (fromMark (endMark tag) ds)

/-- A text with nothing behind its last closing bracket. -/
def EndsClosed (s : List Char) : Prop :=
  ∀ u, u ≠ [] → u <:+ s → '>' ∈ u

/-- A text in which no bracket closes before one opens. -/
def OpensFirst (cs : List Char) : Prop :=
  '>' ∉ cs.takeWhile (· ≠ '<')

/-! ## Texts that end with a closing bracket -/

lemma EndsClosed.of_suffix {s u : List Char} (h : EndsClosed s) (hu : u <:+ s) :
    EndsClosed u :=
  fun v hne hv => h v hne (hv.trans hu)

lemma endsClosed_append_gt (s : List Char) : EndsClosed (s ++ ['>']) := by
  intro u hne hu
  rcases List.suffix_concat_iff.1 hu with rfl | ⟨u, rfl, -⟩
  · exact absurd rfl hne
  · exact List.mem_append_right u List.mem_cons_self

/-- What is in front of such a text does not matter. -/
lemma EndsClosed.append {u : List Char} (h : EndsClosed u) (hne : u ≠ []) (s : List Char) :
    EndsClosed (s ++ u) := by
  intro v hv hsuffix
  rcases List.suffix_or_suffix_of_suffix hsuffix (List.suffix_append s u) with hvu | huv
  · exact h v hv hvu
  · exact huv.subset (h u hne (List.suffix_refl u))

lemma endsClosed_endTag (tag : String) : EndsClosed (endTag tag) :=
  endsClosed_append_gt ('<' :: '/' :: tag.toList)

lemma endsClosed_commentChars (value : String) : EndsClosed (commentChars value) :=
  EndsClosed.append (endsClosed_append_gt ['-', '-']) (List.cons_ne_nil _ _) _

lemma endsClosed_doctypeChars : EndsClosed doctypeChars :=
  endsClosed_append_gt "<!doctype html".toList

/-- No mark with a closing bracket at its end only can start in such a text and end behind
it. -/
lemma EndsClosed.isPassed_or_isInfix {mark s : List Char} (h : EndsClosed s)
    (hmark : '>' ∉ mark.dropLast) (back : List Char) :
    IsPassed mark s back ∨ mark <:+: s := by
  refine Markup.isPassed_or_isInfix fun u m hne hu hm _ heq => hmark ?_
  rw [heq, List.dropLast_append_of_ne_nil hm]
  exact List.mem_append_left _ (h u hne hu)

lemma gt_not_mem_endMark {tag : String} (h : isRawText tag = true) :
    '>' ∉ (endMark tag).dropLast := by
  have hboth : ∀ tag ∈ rawTextTags, '>' ∉ (endMark tag).dropLast := by decide
  exact hboth tag (List.contains_iff_mem.1 h)

/-! ## Texts in which a bracket opens first -/

lemma OpensFirst.append {s rest : List Char} (h : OpensFirst rest) (hlt : '<' ∉ s)
    (hgt : '>' ∉ s) : OpensFirst (s ++ rest) := by
  rw [OpensFirst, Text.takeWhile_append_of_not_mem hlt, List.mem_append, not_or]
  exact ⟨hgt, h⟩

/-! ## A comment that goes on -/

/-- The end of a comment cannot start in a text and end behind it, for the bracket at its end
is behind another one. -/
lemma isPassed_commentEnd {s cs : List Char} (hgt : '>' ∉ s) (hopens : OpensFirst cs) :
    IsPassed commentEnd s cs := by
  refine (isPassed_or_isInfix fun u m _ hu _ hback hmark => hopens ?_).resolve_right fun hin =>
    hgt (hin.subset (by decide))
  obtain ⟨t, rfl⟩ := hback
  have hm : '<' ∉ m := by
    intro hmem
    have hopening : '<' ∈ commentEnd := hmark ▸ List.mem_append_right u hmem
    exact absurd hopening (by decide)
  have hlast : '>' ∈ u ++ m := hmark ▸ (by decide : '>' ∈ commentEnd)
  rw [Text.takeWhile_append_of_not_mem hm]
  have hmem : '>' ∈ m := (List.mem_append.1 hlast).resolve_left fun h => hgt (hu.subset h)
  exact List.mem_append_left _ hmem

/-- The two hyphens at the end of a comment. -/
def hyphens : List Char :=
  ['-', '-']

/-- Hyphens at the end of a text are behind every other character. -/
lemma hyphens_suffix_append_cons_iff {c : Char} (hc : c ≠ '-') (front back : List Char) :
    hyphens <:+ front ++ c :: back ↔ hyphens <:+ back := by
  have hmem : c ∉ hyphens := by simpa [hyphens] using hc
  constructor
  · rintro ⟨t, ht⟩
    rcases List.append_eq_append_iff.1 ht with ⟨u, -, hall⟩ | ⟨u, -, hback⟩
    · refine absurd ?_ hmem
      rw [hall]
      exact List.mem_append_right u List.mem_cons_self
    · cases u with
      | nil =>
        have hall : c :: back = hyphens := hback
        exact absurd (hall ▸ List.mem_cons_self) hmem
      | cons d u => exact ⟨u, (List.cons.inj hback).2.symm⟩
  · exact fun h => (h.trans (List.suffix_cons c back)).trans (List.suffix_append front _)

/-- The value of an attribute has a quotation mark behind it, and so a text that ends with an
attribute ends with hyphens only if there is no value. -/
lemma hyphens_suffix_attribute_iff (front : List Char) (a : Attribute) :
    hyphens <:+ front ++ a.chars ↔ a.value = none ∧ hyphens <:+ a.name.toList := by
  obtain ⟨name, value⟩ := a
  cases value with
  | none =>
    have hchars : Attribute.chars ⟨name, none⟩ = ' ' :: name.toList := by
      simp [Attribute.chars]
    rw [hchars, hyphens_suffix_append_cons_iff (by decide), and_iff_right rfl]
  | some v =>
    have hchars : front ++ Attribute.chars ⟨name, some v⟩ =
        (front ++ ' ' :: name.toList ++ '=' :: '"' :: escape .attribute v.toList) ++ ['"'] := by
      simp [Attribute.chars]
    rw [hchars, hyphens_suffix_append_cons_iff (by decide)]
    exact iff_of_false (by decide) fun h => Option.some_ne_none v h.1

/-- Whether a start tag is readable does not depend on the values of its attributes. -/
lemma isReadable_of_shapes_eq {tag : String} {as bs : List Attribute}
    (h : (Token.opening tag as).IsReadable)
    (hshapes : as.map Attribute.shape = bs.map Attribute.shape) :
    (Token.opening tag bs).IsReadable := by
  refine ⟨h.1, fun b hb => ?_⟩
  have hshape : b.shape ∈ as.map Attribute.shape := hshapes ▸ List.mem_map_of_mem hb
  obtain ⟨a, ha, heq⟩ := List.mem_map.1 hshape
  have hname : a.name = b.name := congrArg Prod.fst heq
  exact hname ▸ h.2 a ha

/-- Whether a start tag ends like a comment does not depend on the values of its
attributes. -/
lemma hyphens_suffix_iff {as bs : List Attribute}
    (hshapes : as.map Attribute.shape = bs.map Attribute.shape) (front : List Char) :
    hyphens <:+ front ++ as.flatMap Attribute.chars ↔
      hyphens <:+ front ++ bs.flatMap Attribute.chars := by
  rcases List.eq_nil_or_concat' as with rfl | ⟨as, a, rfl⟩
  · rw [List.map_nil, eq_comm, List.map_eq_nil_iff] at hshapes
    rw [hshapes]
  · rw [List.map_append, eq_comm, List.map_eq_append_iff] at hshapes
    obtain ⟨bs, last, rfl, -, hlast⟩ := hshapes
    obtain ⟨b, rfl, hshape⟩ := List.map_eq_singleton_iff.1 hlast
    have hname : b.name = a.name := congrArg Prod.fst hshape
    have hvalue : b.value = none ↔ a.value = none := by
      have hsome : b.value.isSome = a.value.isSome := congrArg Prod.snd hshape
      rw [← Option.not_isSome_iff_eq_none, ← Option.not_isSome_iff_eq_none, hsome]
    simp only [List.flatMap_append, List.flatMap_singleton, ← List.append_assoc]
    rw [hyphens_suffix_attribute_iff, hyphens_suffix_attribute_iff, hname, hvalue]

/-- From a comment, a text with one bracket at its end is passed over unless it ends like the
comment. -/
lemma afterMark_commentEnd {s : List Char} (hs : '>' ∉ s) (rest : List Char) :
    afterMark commentEnd (s ++ '>' :: rest) =
      if hyphens <:+ s then rest else afterMark commentEnd rest := by
  split
  · rename_i hhyphens
    obtain ⟨t, rfl⟩ := hhyphens
    have ht : ¬commentEnd <:+: t :=
      fun hin => hs (List.mem_append_left _ (hin.subset (by decide)))
    have hassoc : t ++ hyphens ++ '>' :: rest = t ++ (commentEnd ++ rest) :=
      List.append_assoc t hyphens _
    rw [hassoc, afterMark_of_cut? (cut?_commentEnd ht rest)]
  · rename_i hhyphens
    have hpassed : IsPassed commentEnd (s ++ ['>']) rest := by
      refine ((endsClosed_append_gt s).isPassed_or_isInfix (by decide) rest).resolve_right ?_
      intro hin
      rcases List.infix_concat_iff.1 hin with hsuffix | hin
      · rcases List.suffix_concat_iff.1 hsuffix with hnil | ⟨t, heq, ht⟩
        · exact absurd hnil (by decide)
        · have htwo : hyphens = t := List.append_cancel_right heq
          exact hhyphens (htwo ▸ ht)
      · exact hs (hin.subset (by decide))
    have hassoc : s ++ '>' :: rest = s ++ ['>'] ++ rest := by
      rw [List.append_assoc, List.singleton_append]
    rw [hassoc, afterMark_append hpassed]

/-- From a comment, a start tag is passed over unless it ends like the comment. -/
lemma afterMark_opening {tag : String} {attributes : List Attribute}
    (h : (Token.opening tag attributes).IsReadable) (rest : List Char) :
    afterMark commentEnd ((Token.opening tag attributes).chars ++ rest) =
      if hyphens <:+ '<' :: tag.toList ++ attributes.flatMap Attribute.chars then rest
      else afterMark commentEnd rest := by
  have hgt : '>' ∉ '<' :: tag.toList ++ attributes.flatMap Attribute.chars := by
    rw [List.cons_append, List.mem_cons, not_or]
    exact ⟨by decide, not_mem_opening h.1 h.2 (.inr rfl)⟩
  rw [← afterMark_commentEnd hgt, Token.chars, List.append_assoc, List.singleton_append]

/-- From a script or a style sheet, a start tag is passed over. -/
lemma isPassed_endMark_opening {tag : String} {attributes : List Attribute}
    (h : (Token.opening tag attributes).IsReadable) {other : String}
    (hother : isRawText other = true) (rest : List Char) :
    IsPassed (endMark other) (Token.opening tag attributes).chars rest := by
  refine ((endsClosed_append_gt _).isPassed_or_isInfix (gt_not_mem_endMark hother)
    rest).resolve_right fun hin => ?_
  have hlt : '<' ∉ tag.toList ++ attributes.flatMap Attribute.chars ++ ['>'] := by
    rw [List.mem_append, not_or]
    exact ⟨not_mem_opening h.1 h.2 (.inl rfl), by decide⟩
  rcases List.infix_cons_iff.1 hin with hfront | hinside
  · obtain ⟨c, cs, hcons, hslash, -⟩ := h.1.exists_cons
    have htail := (List.cons_prefix_cons.1 hfront).2
    rw [hcons] at htail
    exact hslash (List.cons_prefix_cons.1 htail).1.symm
  · exact hlt (hinside.subset List.mem_cons_self)

namespace ReadAlike

variable {cs ds : List Char}

/-! ## The same text in front -/

section Append

variable {s : List Char}

/-- From a comment: the comment ends in the text, or behind it. -/
lemma comment_append (h : ReadAlike cs ds) (hs : EndsClosed s)
    (htags : ∀ u, u <:+ s → tagsIn (u ++ cs) = tagsIn (u ++ ds)) :
    tagsIn (afterMark commentEnd (s ++ cs)) = tagsIn (afterMark commentEnd (s ++ ds)) := by
  have hmark : '>' ∉ commentEnd.dropLast := by decide
  by_cases hin : commentEnd <:+: s
  · rw [afterMark_append_of_isInfix (by decide) hin, afterMark_append_of_isInfix (by decide) hin]
    exact htags _ (afterMark_suffix commentEnd s)
  · have hcs := (hs.isPassed_or_isInfix hmark cs).resolve_right hin
    have hds := (hs.isPassed_or_isInfix hmark ds).resolve_right hin
    rw [afterMark_append hcs, afterMark_append hds]
    exact h.comment

/-- From a script or a style sheet: its end tag is in the text, or behind it. -/
lemma raw_append (h : ReadAlike cs ds) (hs : EndsClosed s)
    (htags : ∀ u, u <:+ s → tagsIn (u ++ cs) = tagsIn (u ++ ds)) {tag : String}
    (htag : isRawText tag = true) :
    tagsIn (fromMark (endMark tag) (s ++ cs)) = tagsIn (fromMark (endMark tag) (s ++ ds)) := by
  have hne : endMark tag ≠ [] := List.cons_ne_nil _ _
  have hmark := gt_not_mem_endMark htag
  by_cases hin : endMark tag <:+: s
  · rw [fromMark_append_of_isInfix hne hin, fromMark_append_of_isInfix hne hin]
    exact htags _ (fromMark_suffix _ s)
  · have hcs := (hs.isPassed_or_isInfix hmark cs).resolve_right hin
    have hds := (hs.isPassed_or_isInfix hmark ds).resolve_right hin
    rw [fromMark_append hcs, fromMark_append hds]
    exact h.raw tag htag

/-- Behind a tag the reader goes on outside, or in a script or a style sheet. -/
lemma behindTag_append (h : ReadAlike cs ds) (hs : EndsClosed s)
    (htags : ∀ u, u <:+ s → tagsIn (u ++ cs) = tagsIn (u ++ ds)) (tag : Option Tag) :
    tagsIn (behindTag (s ++ cs) tag) = tagsIn (behindTag (s ++ ds) tag) := by
  rw [behindTag.eq_def, behindTag.eq_def]
  split
  · split
    · rename_i htag
      exact h.raw_append hs htags htag
    · exact htags s (List.suffix_refl s)
  · exact htags s (List.suffix_refl s)

-- Induction on the length of the text, which is what the reader takes from it.
/-- From between tags. -/
lemma tagsIn_append (h : ReadAlike cs ds) (s : List Char) (hs : EndsClosed s) :
    tagsIn (s ++ cs) = tagsIn (s ++ ds) := by
  match s with
  | [] => exact h.outside
  | c :: s =>
    have htail : s <:+ c :: s := List.suffix_cons c s
    have ih : ∀ u, u <:+ s → tagsIn (u ++ cs) = tagsIn (u ++ ds) :=
      fun u hu => h.tagsIn_append u (hs.of_suffix (hu.trans htail))
    by_cases hc : c = '<'
    · subst hc
      by_cases hcomment : commentStart <+: s
      · obtain ⟨s, rfl⟩ := hcomment
        have hsuffix : s <:+ commentStart ++ s := List.suffix_append _ s
        rw [List.cons_append, List.cons_append, List.append_assoc, List.append_assoc,
          tagsIn_commentStart, tagsIn_commentStart]
        exact h.comment_append (hs.of_suffix (hsuffix.trans htail))
          fun u hu => ih u (hu.trans hsuffix)
      · have hgt : '>' ∈ '<' :: s := hs _ (List.cons_ne_nil _ s) (List.suffix_refl _)
        obtain ⟨body, back, rfl, hbody⟩ :=
          List.eq_append_cons_of_mem ((List.mem_cons.1 hgt).resolve_left (by decide))
        have hback : back <:+ body ++ '>' :: back :=
          (List.suffix_cons '>' back).trans (List.suffix_append body _)
        have hstart : ¬commentStart <+: body :=
          fun hfront => hcomment (hfront.trans (List.prefix_append _ _))
        rw [List.cons_append, List.cons_append, List.append_assoc, List.append_assoc,
          List.cons_append, List.cons_append, tagsIn_lt hbody hstart, tagsIn_lt hbody hstart]
        rw [h.behindTag_append (hs.of_suffix (hback.trans htail)) fun u hu =>
          ih u (hu.trans hback)]
    · rw [List.cons_append, List.cons_append, tagsIn_cons_of_ne hc, tagsIn_cons_of_ne hc]
      exact ih s (List.suffix_refl s)
termination_by s.length
decreasing_by exact Nat.lt_succ_of_le hu.length_le

/-- The same text in front changes nothing if it ends with a closing bracket. -/
lemma append (h : ReadAlike cs ds) (hs : EndsClosed s) : ReadAlike (s ++ cs) (s ++ ds) := by
  have htags : ∀ u, u <:+ s → tagsIn (u ++ cs) = tagsIn (u ++ ds) :=
    fun u hu => h.tagsIn_append u (hs.of_suffix hu)
  exact ⟨htags s (List.suffix_refl s), h.comment_append hs htags,
    fun tag htag => h.raw_append hs htags htag⟩

end Append

/-! ## Escaped text in front of one -/

/-- A text without brackets makes no difference in front of one of the texts. -/
lemma append_left (h : ReadAlike cs ds) {s : List Char} (hlt : '<' ∉ s) (hgt : '>' ∉ s)
    (hopens : OpensFirst cs) : ReadAlike (s ++ cs) ds := by
  have hcomment := isPassed_commentEnd hgt hopens
  have hraw : ∀ tag, IsPassed (endMark tag) s cs := by
    intro tag u hne hu hfront
    obtain ⟨c, u, rfl⟩ := List.exists_cons_of_ne_nil hne
    have hc : '<' = c := (List.cons_prefix_cons.1 hfront).1
    exact hlt (hc ▸ hu.subset List.mem_cons_self)
  refine ⟨?_, ?_, fun tag htag => ?_⟩
  · rw [tagsIn_append_of_not_mem hlt]
    exact h.outside
  · rw [afterMark_append hcomment]
    exact h.comment
  · rw [fromMark_append (hraw tag)]
    exact h.raw tag htag

/-! ## Start tags -/

/-- The values of the attributes of a tag in front make no difference. -/
lemma opening (h : ReadAlike cs ds) {tag : String} {as bs : List Attribute}
    (ha : (Token.opening tag as).IsReadable)
    (hshapes : as.map Attribute.shape = bs.map Attribute.shape) :
    ReadAlike ((Token.opening tag as).chars ++ cs) ((Token.opening tag bs).chars ++ ds) := by
  have hb := isReadable_of_shapes_eq ha hshapes
  refine ⟨?_, ?_, fun other hother => ?_⟩
  · rw [tagsIn_opening ha, tagsIn_opening hb, hshapes]
    split
    · rename_i htag
      rw [h.raw tag htag]
    · rw [h.outside]
  · rw [afterMark_opening ha, afterMark_opening hb]
    simp only [hyphens_suffix_iff hshapes]
    split
    · exact h.outside
    · exact h.comment
  · rw [fromMark_append (isPassed_endMark_opening ha hother cs),
      fromMark_append (isPassed_endMark_opening hb hother ds)]
    exact h.raw other hother

end ReadAlike

end FencedCode.Markup
