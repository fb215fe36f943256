import FencedCode.Proofs.Markup.Tokens

/-!
# A reader of HTML

A reader goes through HTML from left to right and takes one token after the other.  A comment
runs from its opening mark to the first closing mark, a tag from `<` to the next `>`, and a
text to the next `<`; in a tag, each attribute has a blank in front of it, and a value stands
between double quotes.  The four references are replaced in texts and in values.  The reader
knows nothing of the way in which documents are written; `readToken_chars` says that it takes
back each token that is written for a document, whatever follows.
-/

namespace FencedCode.Markup

/-! ## The reader -/

section Reader

/-- What stands in front of the first occurrence of a mark, and what follows the mark. -/
def cut? (mark : List Char) : List Char → Option (List Char × List Char)
  | [] => none
  | c :: rest =>
    if mark.isPrefixOf (c :: rest) then some ([], (c :: rest).drop mark.length)
    else (cut? mark rest).map fun (front, back) => (c :: front, back)

/-- Reads one thing after the other until nothing is left.  It gives up when nothing can be
read or nothing was taken. -/
def readAll {α : Type} (one : List Char → Option (α × List Char)) (cs : List Char) :
    Option (List α) :=
  if cs = [] then some []
  else
    match one cs with
    | none => none
    | some (a, rest) =>
      if rest.length < cs.length then (readAll one rest).map (a :: ·) else none
termination_by cs.length

/-- Whether a character belongs to the name of an attribute. -/
def inAttributeName (c : Char) : Bool :=
  c ≠ ' ' && c ≠ '='

/-- Reads an attribute with the blank in front of it. -/
def readAttribute : List Char → Option (Attribute × List Char)
  | ' ' :: cs =>
    let name := String.ofList (cs.takeWhile inAttributeName)
    match cs.dropWhile inAttributeName with
    | '=' :: '"' :: rest =>
      (cut? ['"'] rest).map fun (value, rest) =>
        (⟨name, some (String.ofList (unescape value))⟩, rest)
    | rest => some (⟨name, none⟩, rest)
  | _ => none

/-- The token that a tag is, given what stands between its angle brackets. -/
def readTag : List Char → Option Token
  | '!' :: name => if name = "doctype html".toList then some .doctype else none
  | '/' :: tag => some (.closing (String.ofList tag))
  | body =>
    (readAll readAttribute (body.dropWhile (· ≠ ' '))).map
      (.opening (String.ofList (body.takeWhile (· ≠ ' '))))

/-- The mark at which a comment ends. -/
def commentEnd : List Char :=
  ['-', '-', '>']

/-- Reads a token. -/
def readToken : List Char → Option (Token × List Char)
  | '<' :: '!' :: '-' :: '-' :: rest =>
    (cut? commentEnd rest).map fun (value, rest) => (.comment (String.ofList value), rest)
  | '<' :: rest =>
    (cut? ['>'] rest).bind fun (body, rest) => (readTag body).map (·, rest)
  | cs =>
    some (.text (String.ofList (unescape (cs.takeWhile (· ≠ '<')))), cs.dropWhile (· ≠ '<'))

/-- The tokens of some HTML. -/
def read (html : String) : Option (List Token) :=
  readAll readToken html.toList

end Reader

/-! ## Marks -/

/-- A mark is found behind a text unless it starts earlier, inside the text. -/
lemma cut?_append {mark s : List Char} (rest : List Char) (hmark : mark ≠ [])
    (h : ∀ u, u ≠ [] → u <:+ s → ¬mark <+: u ++ (mark ++ rest)) :
    cut? mark (s ++ (mark ++ rest)) = some (s, rest) := by
  induction s with
  | nil =>
    obtain ⟨c, mark, rfl⟩ := List.exists_cons_of_ne_nil hmark
    have hprefix : (c :: mark).isPrefixOf (c :: (mark ++ rest)) = true :=
      List.isPrefixOf_iff_prefix.2 ⟨rest, rfl⟩
    simp [cut?, hprefix]
  | cons c s ih =>
    have hnot : mark.isPrefixOf (c :: (s ++ (mark ++ rest))) = false := by
      rw [Bool.eq_false_iff, Ne, List.isPrefixOf_iff_prefix]
      exact h (c :: s) (List.cons_ne_nil c s) (List.suffix_refl _)
    have hrest := ih fun u hne hu => h u hne (hu.trans (List.suffix_cons c s))
    simp [cut?, hnot, hrest]

lemma cut?_singleton {m : Char} {s : List Char} (h : m ∉ s) (rest : List Char) :
    cut? [m] (s ++ m :: rest) = some (s, rest) := by
  refine cut?_append rest (List.cons_ne_nil m []) fun u hne hu hprefix => ?_
  obtain ⟨d, u, rfl⟩ := List.exists_cons_of_ne_nil hne
  have hd : m = d := (List.cons_prefix_cons.1 hprefix).1
  exact h (hd ▸ hu.subset List.mem_cons_self)

/-- The mark behind a comment is the first one: it cannot start in the last characters of the
comment, for none of its characters but the last is an angle bracket. -/
lemma cut?_commentEnd {s : List Char} (h : ¬commentEnd <:+: s) (rest : List Char) :
    cut? commentEnd (s ++ (commentEnd ++ rest)) = some (s, rest) := by
  refine cut?_append rest (by decide) fun u hne hu hprefix => h ?_
  match u with
  | [] => exact absurd rfl hne
  | [_] => simp [commentEnd] at hprefix
  | [_, _] => simp [commentEnd] at hprefix
  | a :: b :: c :: u =>
    have hthree : a = '-' ∧ b = '-' ∧ c = '>' := by simpa [commentEnd, eq_comm] using hprefix
    obtain ⟨rfl, rfl, rfl⟩ := hthree
    exact (List.prefix_append commentEnd u).isInfix.trans hu.isInfix

/-! ## Reading on -/

@[simp] lemma readAll_nil {α : Type} (one : List Char → Option (α × List Char)) :
    readAll one [] = some [] := by
  rw [readAll, if_pos rfl]

/-- What is taken first comes first, and the rest is read on its own. -/
lemma readAll_of_eq_some {α : Type} {one : List Char → Option (α × List Char)}
    {cs rest : List Char} {a : α} (h : one cs = some (a, rest))
    (hlt : rest.length < cs.length) : readAll one cs = (readAll one rest).map (a :: ·) := by
  have hne : cs ≠ [] := by
    rintro rfl
    exact absurd hlt (Nat.not_lt_zero _)
  rw [readAll, if_neg hne, h]
  exact if_pos hlt

lemma length_lt_length_append {s : List Char} (h : s ≠ []) (cs : List Char) :
    cs.length < (s ++ cs).length := by
  rw [List.length_append]
  exact Nat.lt_add_of_pos_left (List.length_pos_iff.2 h)

/-- What no run of characters can go into: nothing at all, or a text that starts with a
character outside the run. -/
def StopsAt (c : Char) (cs : List Char) : Prop :=
  cs = [] ∨ ∃ rest, cs = c :: rest

lemma takeWhile_append_of_stopsAt {p : Char → Bool} {c : Char} {s cs : List Char}
    (hs : ∀ d ∈ s, p d = true) (hc : p c = false) (h : StopsAt c cs) :
    (s ++ cs).takeWhile p = s := by
  rw [List.takeWhile_append_of_pos hs]
  rcases h with rfl | ⟨rest, rfl⟩
  · simp
  · simp [hc]

lemma dropWhile_append_of_stopsAt {p : Char → Bool} {c : Char} {s cs : List Char}
    (hs : ∀ d ∈ s, p d = true) (hc : p c = false) (h : StopsAt c cs) :
    (s ++ cs).dropWhile p = cs := by
  rw [List.dropWhile_append_of_pos hs]
  rcases h with rfl | ⟨rest, rfl⟩
  · rfl
  · simp [hc]

/-! ## Attributes -/

lemma inAttributeName_of_isName {name : String} (h : IsName name) :
    ∀ c ∈ name.toList, inAttributeName c = true := by
  intro c hc
  have hblank : c ≠ ' ' := h.ne_of_mem hc (by decide)
  have hequals : c ≠ '=' := h.ne_of_mem hc (by decide)
  simp [inAttributeName, hblank, hequals]

/-- An attribute that is written is read again. -/
lemma readAttribute_chars {a : Attribute} (h : IsName a.name) {rest : List Char}
    (hrest : StopsAt ' ' rest) : readAttribute (a.chars ++ rest) = some (a, rest) := by
  obtain ⟨name, value⟩ := a
  have hname := inAttributeName_of_isName h
  cases value with
  | none =>
    have hchars : Attribute.chars ⟨name, none⟩ ++ rest = ' ' :: (name.toList ++ rest) := by
      simp [Attribute.chars]
    rw [hchars, readAttribute, takeWhile_append_of_stopsAt hname (by decide) hrest,
      dropWhile_append_of_stopsAt hname (by decide) hrest, String.ofList_toList]
    rcases hrest with rfl | ⟨rest, rfl⟩
    · rfl
    · rfl
  | some v =>
    have hchars : Attribute.chars ⟨name, some v⟩ ++ rest =
        ' ' :: (name.toList ++ '=' :: '"' :: (escape .attribute v.toList ++ '"' :: rest)) := by
      simp [Attribute.chars]
    have hstop : StopsAt '=' ('=' :: '"' :: (escape .attribute v.toList ++ '"' :: rest)) :=
      .inr ⟨_, rfl⟩
    rw [hchars, readAttribute, takeWhile_append_of_stopsAt hname (by decide) hstop,
      dropWhile_append_of_stopsAt hname (by decide) hstop, String.ofList_toList]
    simp only [cut?_singleton (quote_not_mem_escape v.toList), Option.map_some, unescape_escape,
      String.ofList_toList]

lemma stopsAt_attributes (attributes : List Attribute) :
    StopsAt ' ' (attributes.flatMap Attribute.chars) := by
  cases attributes with
  | nil => exact .inl rfl
  | cons a rest => exact .inr ⟨_, rfl⟩

/-- The attributes of a tag are read again. -/
lemma readAll_attributes {attributes : List Attribute} (h : ∀ a ∈ attributes, IsName a.name) :
    readAll readAttribute (attributes.flatMap Attribute.chars) = some attributes := by
  induction attributes with
  | nil => exact readAll_nil _
  | cons a rest ih =>
    rw [List.forall_mem_cons] at h
    have hfirst := readAttribute_chars h.1 (stopsAt_attributes rest)
    have hne : a.chars ≠ [] := List.cons_ne_nil _ _
    rw [List.flatMap_cons, readAll_of_eq_some hfirst (length_lt_length_append hne _), ih h.2,
      Option.map_some]

/-! ## Tags -/

/-- An attribute is written without brackets. -/
lemma not_mem_attribute {a : Attribute} (h : IsName a.name) {d : Char}
    (hd : d = '<' ∨ d = '>') : d ∉ a.chars := by
  have hname : d ∉ a.name.toList := h.not_mem (by rcases hd with rfl | rfl <;> decide)
  rw [Attribute.chars]
  rcases hd with rfl | rfl
  · cases a.value with
    | none => simp [hname]
    | some v => simp [hname, lt_not_mem_escape]
  · cases a.value with
    | none => simp [hname]
    | some v => simp [hname, gt_not_mem_escape]

/-- There are no brackets between those of a start tag. -/
lemma not_mem_opening {tag : String} {attributes : List Attribute} (htag : IsName tag)
    (h : ∀ a ∈ attributes, IsName a.name) {d : Char} (hd : d = '<' ∨ d = '>') :
    d ∉ tag.toList ++ attributes.flatMap Attribute.chars := by
  rw [List.mem_append, List.mem_flatMap]
  rintro (hmem | ⟨a, ha, hmem⟩)
  · exact htag.not_mem (by rcases hd with rfl | rfl <;> decide) hmem
  · exact not_mem_attribute (h a ha) hd hmem

/-- A name starts with a character that is no delimiter. -/
lemma IsName.exists_cons {name : String} (h : IsName name) :
    ∃ c rest, name.toList = c :: rest ∧ c ≠ '/' ∧ c ≠ '!' := by
  obtain ⟨c, rest, hcons⟩ := List.exists_cons_of_ne_nil h.toList_ne_nil
  have hc : c ∈ name.toList := hcons ▸ List.mem_cons_self
  exact ⟨c, rest, hcons, h.ne_of_mem hc (by decide), h.ne_of_mem hc (by decide)⟩

lemma readTag_of_ne {c : Char} (hslash : c ≠ '/') (hmark : c ≠ '!') (body : List Char) :
    readTag (c :: body) =
      (readAll readAttribute ((c :: body).dropWhile (· ≠ ' '))).map
        (.opening (String.ofList ((c :: body).takeWhile (· ≠ ' ')))) := by
  rw [readTag.eq_def]
  split
  · rename_i heq
    exact absurd (List.cons.inj heq).1 hmark
  · rename_i heq
    exact absurd (List.cons.inj heq).1 hslash
  · rfl

/-- A start tag that is written is read again. -/
lemma readTag_opening {tag : String} {attributes : List Attribute} (htag : IsName tag)
    (h : ∀ a ∈ attributes, IsName a.name) :
    readTag (tag.toList ++ attributes.flatMap Attribute.chars) =
      some (.opening tag attributes) := by
  have hname : ∀ c ∈ tag.toList, decide (c ≠ ' ') = true := by
    intro c hc
    exact decide_eq_true (htag.ne_of_mem hc (by decide))
  have hstop := stopsAt_attributes attributes
  obtain ⟨c, rest, hcons, hslash, hmark⟩ := htag.exists_cons
  have hread := readTag_of_ne hslash hmark (rest ++ attributes.flatMap Attribute.chars)
  rw [← List.cons_append, ← hcons, takeWhile_append_of_stopsAt hname (by decide) hstop,
    dropWhile_append_of_stopsAt hname (by decide) hstop, readAll_attributes h,
    Option.map_some, String.ofList_toList] at hread
  exact hread

/-! ## Tokens -/

namespace Token

/-- What a token must be like to be read again: its names are names, and a comment does not
end early. -/
def IsReadable : Token → Prop
  | text _ => True
  | comment value => ¬commentEnd <:+: value.toList
  | doctype => True
  | opening tag attributes => IsName tag ∧ ∀ a ∈ attributes, IsName a.name
  | closing tag => IsName tag

end Token

lemma readToken_of_ne {c : Char} (h : c ≠ '<') (cs : List Char) :
    readToken (c :: cs) =
      some (.text (String.ofList (unescape ((c :: cs).takeWhile (· ≠ '<')))),
        (c :: cs).dropWhile (· ≠ '<')) := by
  rw [readToken.eq_def]
  split
  · rename_i heq
    exact absurd (List.cons.inj heq).1 h
  · rename_i heq
    exact absurd (List.cons.inj heq).1 h
  · rfl

/-- A tag that does not start like a comment or a document type ends at the next angle
bracket. -/
lemma readToken_tag {c : Char} {body : List Char} {token : Token} (hc : c ≠ '!')
    (hbody : '>' ∉ c :: body) (h : readTag (c :: body) = some token) (rest : List Char) :
    readToken ('<' :: c :: (body ++ '>' :: rest)) = some (token, rest) := by
  rw [readToken.eq_def]
  split
  · rename_i heq
    exact absurd (List.cons.inj (List.cons.inj heq).2).1 hc
  · rename_i heq
    have hcut := cut?_singleton hbody rest
    rw [List.cons_append] at hcut
    rw [← (List.cons.inj heq).2, hcut]
    simp only [Option.bind_some, h, Option.map_some]
  · rename_i hbracket
    exact absurd rfl (hbracket _)

lemma readToken_doctype (rest : List Char) :
    readToken (doctypeChars ++ rest) = some (.doctype, rest) := by
  rfl

lemma readToken_comment {value : String} (h : ¬commentEnd <:+: value.toList)
    (rest : List Char) :
    readToken (commentChars value ++ rest) = some (.comment value, rest) := by
  have hchars : commentChars value ++ rest =
      '<' :: '!' :: '-' :: '-' :: (value.toList ++ (commentEnd ++ rest)) := by
    simp [commentChars, commentEnd]
  rw [hchars, readToken, cut?_commentEnd h]
  simp only [Option.map_some, String.ofList_toList]

lemma escape_ne_nil {value : String} (h : value ≠ "") :
    escape .text value.toList ≠ [] := by
  intro hnil
  have hback := unescape_escape .text value.toList
  rw [hnil] at hback
  exact h (String.toList_eq_nil_iff.1 hback.symm)

lemma readToken_text {value : String} (h : value ≠ "") {rest : List Char}
    (hrest : StopsAt '<' rest) :
    readToken (escape .text value.toList ++ rest) = some (.text value, rest) := by
  have hlt : ∀ c ∈ escape .text value.toList, decide (c ≠ '<') = true := by
    intro c hc
    rw [decide_eq_true_iff]
    rintro rfl
    exact lt_not_mem_escape .text value.toList hc
  obtain ⟨c, cs, hcons⟩ := List.exists_cons_of_ne_nil (escape_ne_nil h)
  have hc : c ≠ '<' := of_decide_eq_true (hlt c (hcons ▸ List.mem_cons_self))
  have hread := readToken_of_ne hc (cs ++ rest)
  rw [← List.cons_append, ← hcons, takeWhile_append_of_stopsAt hlt (by decide) hrest,
    dropWhile_append_of_stopsAt hlt (by decide) hrest, unescape_escape,
    String.ofList_toList] at hread
  exact hread

/-- Every token is taken back from the text that is written for it.  A text goes as far as
the next tag, and so it may be neither empty nor followed by more text. -/
lemma readToken_chars {token : Token} (h : token.IsReadable) {rest : List Char}
    (htext : ∀ value, token = .text value → value ≠ "" ∧ StopsAt '<' rest) :
    readToken (token.chars ++ rest) = some (token, rest) := by
  cases token with
  | text value =>
    obtain ⟨hne, hrest⟩ := htext value rfl
    exact readToken_text hne hrest
  | comment value => exact readToken_comment h rest
  | doctype => exact readToken_doctype rest
  | opening tag attributes =>
    obtain ⟨c, cs, hcons, -, hmark⟩ := h.1.exists_cons
    have hbody := not_mem_opening h.1 h.2 (.inr rfl)
    have htag := readTag_opening h.1 h.2
    rw [hcons, List.cons_append] at hbody htag
    have hread := readToken_tag hmark hbody htag rest
    simpa [Token.chars, hcons] using hread
  | closing tag =>
    have hbody : '>' ∉ '/' :: tag.toList := by
      simpa using h.not_mem (by decide)
    have htag : readTag ('/' :: tag.toList) = some (.closing tag) := by
      rw [readTag, String.ofList_toList]
    have hread := readToken_tag (by decide) hbody htag rest
    simpa [Token.chars, endTag] using hread

end FencedCode.Markup
