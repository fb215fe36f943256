import FencedCode.Proofs.Markup.Reader
import Mathlib.Data.List.Infix

/-!
# Reading the HTML of a document

A row of tokens in which no two texts meet is read again from the text that is written for
it, `readAll_flatMap_chars`.  The tokens of a document are such a row, and so the HTML of the
document is read as its tokens, `read_toHtml`: content never becomes markup, and documents
with the same HTML have the same tokens.  This is so if the names in the document can stand in
tags, no comment has the mark in it that ends comments, and there are no script and style
elements, whose texts are not escaped.
-/

namespace FencedCode

namespace Markup

/-! ## Rows of tokens -/

namespace Token

lemma chars_ne_nil {token : Token} (h : ∀ value, token = .text value → value ≠ "") :
    token.chars ≠ [] := by
  cases token with
  | text value => exact escape_ne_nil (h value rfl)
  | comment value => exact List.cons_ne_nil _ _
  | doctype => exact List.cons_ne_nil _ _
  | opening tag attributes => exact List.cons_ne_nil _ _
  | closing tag => exact List.cons_ne_nil _ _

/-- Every token but a text starts with an angle bracket. -/
lemma stopsAt_flatMap_chars {tokens : List Token} (h : startsWithText tokens = false) :
    StopsAt '<' (tokens.flatMap chars) := by
  cases tokens with
  | nil => exact .inl rfl
  | cons token rest =>
    cases token with
    | text value => exact absurd h Bool.noConfusion
    | comment value => exact .inr ⟨_, rfl⟩
    | doctype => exact .inr ⟨_, rfl⟩
    | opening tag attributes => exact .inr ⟨_, rfl⟩
    | closing tag => exact .inr ⟨_, rfl⟩

lemma IsJoined.tail {token : Token} {rest : List Token} (h : IsJoined (token :: rest)) :
    IsJoined rest := by
  cases token with
  | text value => exact h.2.2
  | comment value => exact h
  | doctype => exact h
  | opening tag attributes => exact h
  | closing tag => exact h

/-- A text is not empty, and behind it there is no other text. -/
lemma IsJoined.head {token : Token} {rest : List Token} (h : IsJoined (token :: rest))
    (value : String) (htext : token = .text value) :
    value ≠ "" ∧ StopsAt '<' (rest.flatMap chars) := by
  subst htext
  exact ⟨h.1, stopsAt_flatMap_chars h.2.1⟩

end Token

/-- A row of tokens is read again from the text that is written for it. -/
lemma readAll_flatMap_chars {tokens : List Token} (hjoined : Token.IsJoined tokens)
    (h : ∀ token ∈ tokens, token.IsReadable) :
    readAll readToken (tokens.flatMap Token.chars) = some tokens := by
  induction tokens with
  | nil => exact readAll_nil _
  | cons token rest ih =>
    rw [List.forall_mem_cons] at h
    have hfirst := readToken_chars h.1 hjoined.head
    have hne : token.chars ≠ [] := Token.chars_ne_nil fun value hv => (hjoined.head value hv).1
    rw [List.flatMap_cons, readAll_of_eq_some hfirst (length_lt_length_append hne _),
      ih hjoined.tail h.2, Option.map_some]

end Markup

/-! ## Documents that can be read -/

/-- An element that can be read again: its tag and its properties have proper names, and the
texts in it are escaped. -/
structure Element.IsPlain (e : Element) : Prop where
  tag : Markup.IsName e.tag
  escaped : e.tag ∉ Markup.rawTextTags
  properties : ∀ p ∈ e.properties.entries, Markup.IsName p.1

/-- A document that can be read again: every element in it can, and no comment ends early. -/
structure Root.IsPlain (r : Root) : Prop where
  elements : ∀ e ∈ r.elements, e.IsPlain
  comments : ∀ c ∈ r.comments, ¬Markup.commentEnd <:+: c.toList

instance (e : Element) : Decidable e.IsPlain :=
  decidable_of_iff
    (Markup.IsName e.tag ∧ e.tag ∉ Markup.rawTextTags ∧
      ∀ p ∈ e.properties.entries, Markup.IsName p.1)
    ⟨fun ⟨htag, hescaped, hproperties⟩ => ⟨htag, hescaped, hproperties⟩,
      fun ⟨htag, hescaped, hproperties⟩ => ⟨htag, hescaped, hproperties⟩⟩

instance (r : Root) : Decidable r.IsPlain :=
  decidable_of_iff
    ((∀ e ∈ r.elements, e.IsPlain) ∧ ∀ c ∈ r.comments, ¬Markup.commentEnd <:+: c.toList)
    ⟨fun ⟨helements, hcomments⟩ => ⟨helements, hcomments⟩,
      fun ⟨helements, hcomments⟩ => ⟨helements, hcomments⟩⟩

namespace Markup

lemma name_of_shownAttribute {p : String × PropertyValue} {a : Attribute}
    (h : shownAttribute p = some a) : a.name = attributeName p.1 := by
  obtain ⟨name, v⟩ := p
  rw [shownAttribute_eq, Option.map_eq_some_iff] at h
  obtain ⟨value, -, rfl⟩ := h
  rfl

lemma isReadable_opening {e : Element} (h : e.IsPlain) :
    (Token.opening e.tag (e.properties.entries.filterMap shownAttribute)).IsReadable := by
  refine ⟨h.tag, fun a ha => ?_⟩
  obtain ⟨p, hp, hshown⟩ := List.mem_filterMap.1 ha
  rw [name_of_shownAttribute hshown]
  exact (h.properties p hp).attributeName

end Markup

namespace Node

open Markup

mutual

/-- The tokens of a node can be read if its elements and comments can. -/
lemma isReadable_of_mem_pieces {n : Node} (helements : ∀ e ∈ n.elements, e.IsPlain)
    (hcomments : ∀ c ∈ n.comments, ¬commentEnd <:+: c.toList) {token : Token}
    (h : token ∈ n.pieces) : token.IsReadable := by
  match n with
  | root children =>
    rw [elements] at helements
    rw [comments] at hcomments
    rw [pieces] at h
    exact isReadable_of_mem_piecesOfAll helements hcomments h
  | element tag properties children =>
    rw [elements, List.forall_mem_cons] at helements
    rw [comments] at hcomments
    rw [pieces, List.mem_cons] at h
    rcases h with rfl | h
    · exact isReadable_opening helements.1
    · split at h
      · exact absurd h List.not_mem_nil
      · rcases List.mem_append.1 h with hinside | hclosing
        · exact isReadable_of_mem_piecesOfAll helements.2 hcomments hinside
        · rw [List.mem_singleton.1 hclosing]
          exact helements.1.tag
  | text value =>
    rw [pieces, List.mem_singleton] at h
    rw [h]
    exact trivial
  | comment value =>
    rw [pieces, List.mem_singleton] at h
    rw [h]
    exact hcomments value (by simp [comments])
  | doctype =>
    rw [pieces, List.mem_singleton] at h
    rw [h]
    exact trivial

/-- The same for several nodes. -/
lemma isReadable_of_mem_piecesOfAll {nodes : List Node}
    (helements : ∀ e ∈ elementsOfAll nodes, e.IsPlain)
    (hcomments : ∀ c ∈ commentsOfAll nodes, ¬commentEnd <:+: c.toList) {token : Token}
    (h : token ∈ piecesOfAll nodes) : token.IsReadable := by
  match nodes with
  | [] => exact absurd h List.not_mem_nil
  | n :: rest =>
    rw [elementsOfAll, List.forall_mem_append] at helements
    rw [commentsOfAll, List.forall_mem_append] at hcomments
    rw [piecesOfAll, List.mem_append] at h
    rcases h with hfirst | hrest
    · exact isReadable_of_mem_pieces helements.1 hcomments.1 hfirst
    · exact isReadable_of_mem_piecesOfAll helements.2 hcomments.2 hrest

end

end Node

lemma Root.IsPlain.isReadable {r : Root} (h : r.IsPlain) :
    ∀ token ∈ r.tokens, token.IsReadable := by
  intro token htoken
  rcases Markup.Token.mem_joinTexts htoken with ⟨s, rfl⟩ | hpiece
  · exact trivial
  · exact Node.isReadable_of_mem_piecesOfAll h.elements h.comments hpiece

lemma Root.IsPlain.isRawText_eq_false {r : Root} (h : r.IsPlain) :
    ∀ e ∈ r.elements, Markup.isRawText e.tag = false := by
  intro e he
  have hnot := (h.elements e he).escaped
  simpa [Markup.isRawText] using hnot

/-! ## The main result -/

/-- **The HTML of a document can be read.**  If the names in a document can stand in tags, no
comment ends early and there are no script and style elements, then a reader of its HTML
finds exactly its tokens. -/
theorem Root.read_toHtml (r : Root) (h : r.IsPlain) : Markup.read r.toHtml = some r.tokens := by
  rw [Markup.read, Root.toList_toHtml h.isRawText_eq_false]
  exact Markup.readAll_flatMap_chars (Markup.Token.isJoined_joinTexts _) h.isReadable

/-- A document whose texts, values and comment all look like markup. -/
def trickyDocument : Root :=
  ⟨[.doctype, .comment "<p>--",
    .element "p" (.ofList [("title", .text "\"><br a=\"&lt;"), ("dataRawCode", .flag true),
        ("hidden", .flag false), ("className", .list ["a", "b"])])
      [.text "1 < 2 &", .root [.text "amp; <br>"], .text "",
        .element "br" {} [.text "lost"], .text ""]]⟩

/-- The texts that meet are read as one, the void element loses its text, and nothing else is
changed. -/
theorem Root.read_toHtml_trickyDocument :
    trickyDocument.IsPlain ∧
      Markup.read trickyDocument.toHtml =
        some [.doctype, .comment "<p>--",
          .opening "p" [⟨"class", some "a b"⟩, ⟨"data-raw-code", none⟩,
            ⟨"title", some "\"><br a=\"&lt;"⟩],
          .text "1 < 2 &amp; <br>", .opening "br" [], .closing "p"] := by
  have hplain : trickyDocument.IsPlain := by decide
  exact ⟨hplain, (Root.read_toHtml trickyDocument hplain).trans rfl⟩

end FencedCode
