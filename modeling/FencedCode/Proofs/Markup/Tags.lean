import FencedCode.Proofs.Markup.Marks
import FencedCode.Proofs.Text.Parts

/-!
# The tags of some HTML

A reader that looks for tags goes through HTML from one tag to the next.  It goes on behind the
first `-->` when a comment starts, and at the first `</` that is followed by the name of the
tag when a script or a style sheet starts, whatever stands in between; it never gives up.
`readTags` gives the tags that it finds, in order and without the values of their attributes.
What stands between the brackets of a tag is looked at on its own, `tagsIn_lt`, and text
between tags, comments and the document type add no tags, `tagsIn_append_of_not_mem` and the
lemmas behind it.
-/

namespace FencedCode.Markup

/-! ## The reader -/

/-- A tag without the values of its attributes. -/
inductive Tag where
  /-- A start tag with the names of its attributes, and whether they have a value. -/
  | opening (name : String) (attributes : List (String × Bool))
  /-- An end tag. -/
  | closing (name : String)
  deriving DecidableEq

/-- The name of an attribute and whether it has a value. -/
def Attribute.shape (a : Attribute) : String × Bool :=
  (a.name, a.value.isSome)

/-- The tag that a token is, if it is one. -/
def Token.tag? : Token → Option Tag
  | opening tag attributes => some (.opening tag (attributes.map Attribute.shape))
  | closing tag => some (.closing tag)
  | _ => none

/-- The tag that stands between two brackets, unless it is a declaration.  Attributes that
cannot be read are left out. -/
def tagBetween? : List Char → Option Tag
  | '!' :: _ => none
  | '/' :: name => some (.closing (String.ofList name))
  | body =>
    let attributes := (readAll readAttribute (body.dropWhile (· ≠ ' '))).getD []
    some (.opening (String.ofList (body.takeWhile (· ≠ ' ')))
      (attributes.map Attribute.shape))

/-- How the end tag of an element starts. -/
def endMark (tag : String) : List Char :=
  '<' :: '/' :: tag.toList

/-- What the reader goes on with behind a tag. -/
def behindTag (rest : List Char) : Option Tag → List Char
  | some (.opening name _) => if isRawText name then fromMark (endMark name) rest else rest
  | _ => rest

/-- What starts a comment, behind the bracket. -/
def commentStart : List Char :=
  ['!', '-', '-']

lemma behindTag_suffix (rest : List Char) (tag : Option Tag) : behindTag rest tag <:+ rest := by
  rw [behindTag.eq_def]
  split
  · split
    · exact fromMark_suffix _ rest
    · exact List.suffix_refl rest
  · exact List.suffix_refl rest

/-- The tags in a text.  A comment or a tag that does not end has none behind it. -/
def tagsIn : List Char → List Tag
  | [] => []
  | c :: cs =>
    if c ≠ '<' then tagsIn cs
    else if commentStart <+: cs then tagsIn (afterMark commentEnd (cs.drop 3))
    else if '>' ∈ cs then
      let tag := tagBetween? (cs.takeWhile (· ≠ '>'))
      tag.toList ++ tagsIn (behindTag (cs.dropWhile (· ≠ '>')).tail tag)
    else []
termination_by cs => cs.length
decreasing_by
  · exact Nat.lt_succ_self _
  · have hafter := (afterMark_suffix commentEnd (cs.drop 3)).trans (List.drop_suffix 3 cs)
    exact Nat.lt_succ_of_le hafter.length_le
  · have hbehind := ((behindTag_suffix _ tag).trans (List.tail_suffix _)).trans
      (List.dropWhile_suffix (l := cs) (· ≠ '>'))
    exact Nat.lt_succ_of_le hbehind.length_le

/-- The tags in some HTML. -/
def readTags (html : String) : List Tag :=
  tagsIn html.toList

/-! ## Text between tags -/

@[simp] lemma tagsIn_nil : tagsIn [] = [] := by
  rw [tagsIn]

lemma tagsIn_cons_of_ne {c : Char} (h : c ≠ '<') (cs : List Char) :
    tagsIn (c :: cs) = tagsIn cs := by
  rw [tagsIn, if_pos h]

/-- A text without angle brackets adds no tags, whatever it joins. -/
lemma tagsIn_append_of_not_mem {s : List Char} (h : '<' ∉ s) (rest : List Char) :
    tagsIn (s ++ rest) = tagsIn rest := by
  induction s with
  | nil => rfl
  | cons c s ih =>
    rw [List.mem_cons, not_or] at h
    rw [List.cons_append, tagsIn_cons_of_ne (Ne.symm h.1), ih h.2]

/-! ## One bracket -/

/-- The reader goes on behind the end of a comment, wherever that is. -/
lemma tagsIn_commentStart (cs : List Char) :
    tagsIn ('<' :: (commentStart ++ cs)) = tagsIn (afterMark commentEnd cs) := by
  rw [tagsIn, if_neg (not_not.2 rfl), if_pos (List.prefix_append commentStart cs)]
  rfl

/-- The reader looks at what stands between the brackets of a tag and goes on behind them. -/
lemma tagsIn_lt {body : List Char} (hbody : '>' ∉ body) (h : ¬commentStart <+: body)
    (rest : List Char) :
    tagsIn ('<' :: (body ++ '>' :: rest)) =
      (tagBetween? body).toList ++ tagsIn (behindTag rest (tagBetween? body)) := by
  have hstart : ¬commentStart <+: body ++ '>' :: rest := by
    intro hfront
    rcases prefix_append_cases hfront with hinside | ⟨m, hm, hmark, hback⟩
    · exact h hinside
    · obtain ⟨d, m, rfl⟩ := List.exists_cons_of_ne_nil hm
      have hd : d = '>' := (List.cons_prefix_cons.1 hback).1
      have hmem : '>' ∈ commentStart := by
        rw [hmark, hd]
        exact List.mem_append_right body List.mem_cons_self
      exact absurd hmem (by decide)
  rw [tagsIn, if_neg (not_not.2 rfl), if_neg hstart,
    if_pos (List.mem_append_right body List.mem_cons_self),
    Text.takeWhile_append_mark hbody, Text.dropWhile_append_mark hbody]
  rfl

/-! ## Comments and tags -/

/-- A comment that does not end early adds no tags. -/
lemma tagsIn_comment {value : String} (h : ¬commentEnd <:+: value.toList) (rest : List Char) :
    tagsIn (commentChars value ++ rest) = tagsIn rest := by
  have hchars : commentChars value ++ rest =
      '<' :: (commentStart ++ (value.toList ++ (commentEnd ++ rest))) := by
    simp [commentChars, commentStart, commentEnd]
  rw [hchars, tagsIn_commentStart, afterMark_of_cut? (cut?_commentEnd h rest)]

lemma tagsIn_doctype (rest : List Char) : tagsIn (doctypeChars ++ rest) = tagsIn rest :=
  @tagsIn_lt "!doctype html".toList (by decide) (by decide) rest

/-- A tag that can be read as a token is found. -/
lemma tagBetween?_of_readTag {body : List Char} {token : Token}
    (h : readTag body = some token) : tagBetween? body = token.tag? := by
  rw [readTag.eq_def] at h
  split at h
  · split at h
    · cases h
      rfl
    · cases h
  · cases h
    rfl
  · rename_i hdeclaration hslash
    obtain ⟨attributes, hattributes, rfl⟩ := Option.map_eq_some_iff.1 h
    rw [tagBetween?.eq_def]
    split
    · exact absurd rfl (hdeclaration _)
    · exact absurd rfl (hslash _)
    · simp only [hattributes, Option.getD_some, Token.tag?]

lemma tagsIn_endTag {tag : String} (h : IsName tag) (rest : List Char) :
    tagsIn (endTag tag ++ rest) = .closing tag :: tagsIn rest := by
  have hbody : '>' ∉ '/' :: tag.toList := by
    simpa using h.not_mem (by decide)
  have htag : tagBetween? ('/' :: tag.toList) = some (.closing tag) := by
    rw [tagBetween?, String.ofList_toList]
  have hstart : ¬commentStart <+: '/' :: tag.toList :=
    fun hfront => absurd (List.cons_prefix_cons.1 hfront).1 (by decide)
  have htags := tagsIn_lt hbody hstart rest
  rw [htag] at htags
  simpa [endTag, behindTag] using htags

/-- Behind a start tag the reader goes on at once, or at the end tag of a raw text element. -/
lemma tagsIn_opening {tag : String} {attributes : List Attribute}
    (h : (Token.opening tag attributes).IsReadable) (rest : List Char) :
    tagsIn ((Token.opening tag attributes).chars ++ rest) =
      .opening tag (attributes.map Attribute.shape) ::
        tagsIn (if isRawText tag then fromMark (endMark tag) rest else rest) := by
  have hbody := not_mem_opening h.1 h.2 (.inr rfl)
  have htag := tagBetween?_of_readTag (readTag_opening h.1 h.2)
  have hstart : ¬commentStart <+: tag.toList ++ attributes.flatMap Attribute.chars := by
    obtain ⟨c, cs, hcons, -, hmark⟩ := h.1.exists_cons
    rw [hcons]
    exact fun hfront => hmark (List.cons_prefix_cons.1 hfront).1.symm
  have htags := tagsIn_lt hbody hstart rest
  rw [htag] at htags
  simpa [Token.chars, Token.tag?, behindTag] using htags

end FencedCode.Markup
