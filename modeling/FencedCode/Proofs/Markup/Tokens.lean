import FencedCode.Markup.Html
import FencedCode.Proofs.Elements
import FencedCode.Proofs.Markup.Escaping
import FencedCode.Proofs.Markup.Names
import Mathlib.Data.List.Basic

/-!
# The tokens of a document

What a document says in HTML is a row of tokens: start tags with their attributes, end tags,
texts, comments and document types.  `Root.tokens` reads it off the tree, where texts that
meet become one and empty ones disappear.  The HTML of a document whose texts are all escaped
is the row of its tokens as they are written, `toHtml_eq_flatMap_chars`.
-/

namespace FencedCode

namespace Markup

/-! ## Tokens -/

/-- A token of HTML. -/
inductive Token where
  /-- A text between tags. -/
  | text (value : String)
  /-- A comment. -/
  | comment (value : String)
  /-- The document type. -/
  | doctype
  /-- A start tag with its attributes. -/
  | opening (tag : String) (attributes : List Attribute)
  /-- An end tag. -/
  | closing (tag : String)
  deriving DecidableEq

namespace Token

/-- How a token is written. -/
def chars : Token → List Char
  | text value => escape .text value.toList
  | comment value => commentChars value
  | doctype => doctypeChars
  | opening tag attributes => '<' :: tag.toList ++ attributes.flatMap Attribute.chars ++ ['>']
  | closing tag => endTag tag

/-- Whether a row of tokens starts with a text. -/
def startsWithText : List Token → Bool
  | text _ :: _ => true
  | _ => false

/-- Puts a text in front of a row of tokens: it joins a text that stands there, and an empty
text disappears. -/
def consText (value : String) : List Token → List Token
  | text next :: rest => text (value ++ next) :: rest
  | rest => if value = "" then rest else text value :: rest

/-- Joins texts that meet, and leaves out empty ones. -/
def joinTexts : List Token → List Token
  | [] => []
  | text value :: rest => consText value (joinTexts rest)
  | token :: rest => token :: joinTexts rest

/-- A row of tokens in which no text is empty and no two texts meet. -/
def IsJoined : List Token → Prop
  | [] => True
  | text value :: rest => value ≠ "" ∧ startsWithText rest = false ∧ IsJoined rest
  | _ :: rest => IsJoined rest

end Token

/-- The attribute that a reader is to find for a property: a switch that is off has none, one
that is on stands alone, and the items of a list are joined by blanks. -/
def shownAttribute : String × PropertyValue → Option Attribute
  | (_, .flag false) => none
  | (name, .flag true) => some ⟨attributeName name, none⟩
  | (name, .number x) => some ⟨attributeName name, some x.plain⟩
  | (name, .text s) => some ⟨attributeName name, some s⟩
  | (name, .list items) => some ⟨attributeName name, some (" ".intercalate items)⟩

end Markup

namespace Node

open Markup

mutual

/-- The tokens of a node, with one for each text: an element is its start tag, what is in it,
and its end tag, but a void element is its start tag alone. -/
def pieces : Node → List Token
  | root children => piecesOfAll children
  | element tag properties children =>
    .opening tag (properties.entries.filterMap shownAttribute) ::
      if isVoid tag then [] else piecesOfAll children ++ [.closing tag]
  | text value => [.text value]
  | comment value => [.comment value]
  | doctype => [.doctype]

/-- The tokens of several nodes, with one for each text. -/
def piecesOfAll : List Node → List Token
  | [] => []
  | n :: rest => pieces n ++ piecesOfAll rest

end

mutual

/-- The comments at and below a node, in document order. -/
def comments : Node → List String
  | root children => commentsOfAll children
  | element _ _ children => commentsOfAll children
  | comment value => [value]
  | _ => []

/-- The comments at and below several nodes, in document order. -/
def commentsOfAll : List Node → List String
  | [] => []
  | n :: rest => comments n ++ commentsOfAll rest

end

end Node

/-- The tokens of a document. -/
def Root.tokens (r : Root) : List Markup.Token :=
  Markup.Token.joinTexts (Node.piecesOfAll r.children)

/-- The comments of a document, in document order. -/
def Root.comments (r : Root) : List String :=
  Node.commentsOfAll r.children

namespace Markup

/-! ## Joined texts -/

namespace Token

lemma chars_consText (value : String) (rest : List Token) :
    (consText value rest).flatMap chars =
      escape .text value.toList ++ rest.flatMap chars := by
  rw [consText.eq_def]
  split
  · simp [chars, escape_append]
  · split
    · rename_i hempty
      simp [hempty, escape]
    · rfl

/-- Joining texts does not change what is written. -/
lemma chars_joinTexts (tokens : List Token) :
    (joinTexts tokens).flatMap chars = tokens.flatMap chars := by
  induction tokens with
  | nil => rfl
  | cons token rest ih =>
    cases token <;> simp [joinTexts, chars_consText, ih, chars]

lemma isJoined_consText (value : String) {rest : List Token} (h : IsJoined rest) :
    IsJoined (consText value rest) := by
  rw [consText.eq_def]
  split
  · rename_i next rest
    obtain ⟨hne, hrest⟩ := h
    refine ⟨fun hempty => hne ?_, hrest⟩
    have hlist := congrArg String.toList hempty
    rw [String.toList_append] at hlist
    exact String.toList_eq_nil_iff.1 (List.append_eq_nil_iff.1 hlist).2
  · rename_i hnext
    split
    · exact h
    · rename_i hne
      refine ⟨hne, ?_, h⟩
      rw [startsWithText.eq_def]
      split
      · exact absurd rfl (hnext _ _)
      · rfl

/-- After joining, no text is empty and no two texts meet. -/
lemma isJoined_joinTexts (tokens : List Token) : IsJoined (joinTexts tokens) := by
  induction tokens with
  | nil => exact trivial
  | cons token rest ih =>
    cases token with
    | text value => exact isJoined_consText value ih
    | comment value => exact ih
    | doctype => exact ih
    | opening tag attributes => exact ih
    | closing tag => exact ih

lemma mem_consText {value : String} {rest : List Token} {token : Token}
    (h : token ∈ consText value rest) : (∃ s, token = text s) ∨ token ∈ rest := by
  rw [consText.eq_def] at h
  split at h
  · exact (List.mem_cons.1 h).imp (fun heq => ⟨_, heq⟩) (List.mem_cons_of_mem _)
  · split at h
    · exact .inr h
    · exact (List.mem_cons.1 h).imp (fun heq => ⟨_, heq⟩) id

/-- Joining texts makes no new token other than texts. -/
lemma mem_joinTexts {tokens : List Token} {token : Token} (h : token ∈ joinTexts tokens) :
    (∃ s, token = text s) ∨ token ∈ tokens := by
  induction tokens with
  | nil => exact .inr h
  | cons first rest ih =>
    have hkeep : token ∈ first :: joinTexts rest →
        (∃ s, token = text s) ∨ token ∈ first :: rest := by
      intro h
      rcases List.mem_cons.1 h with heq | hrest
      · exact .inr (heq ▸ List.mem_cons_self)
      · exact (ih hrest).imp id (List.mem_cons_of_mem _)
    cases first with
    | text value =>
      rcases mem_consText h with htext | hrest
      · exact .inl htext
      · exact (ih hrest).imp id (List.mem_cons_of_mem _)
    | comment value => exact hkeep h
    | doctype => exact hkeep h
    | opening tag attributes => exact hkeep h
    | closing tag => exact hkeep h

end Token

/-! ## Written tokens -/

lemma shownAttribute_eq (name : String) (v : PropertyValue) :
    shownAttribute (name, v) =
      v.attributeValue?.map fun value => ⟨attributeName name, value⟩ := by
  cases v with
  | flag on => cases on <;> rfl
  | number x => rfl
  | text s => rfl
  | list items => rfl

lemma filterMap_shownAttribute (p : Properties) :
    p.entries.filterMap shownAttribute = p.attributes :=
  List.filterMap_congr fun e _ => shownAttribute_eq e.1 e.2

end Markup

namespace Node

open Markup

mutual

/-- Without script and style elements, the HTML of a node is the row of its tokens as they
are written. -/
lemma html_eq_flatMap_chars {n : Node} (h : ∀ e ∈ n.elements, isRawText e.tag = false) :
    n.html false = n.pieces.flatMap Token.chars := by
  match n with
  | root children =>
    rw [elements] at h
    rw [html, pieces, htmlAll_eq_flatMap_chars h]
  | element tag properties children =>
    rw [elements, List.forall_mem_cons] at h
    have ih := htmlAll_eq_flatMap_chars h.2
    rw [html, pieces, filterMap_shownAttribute, List.flatMap_cons]
    have hraw : isRawText tag = false := h.1
    rw [hraw, ih]
    cases isVoid tag with
    | true => rfl
    | false => simp [startTag, Token.chars]
  | text value => simp [html, pieces, textChars, Token.chars]
  | comment value => simp [html, pieces, Token.chars]
  | doctype => simp [html, pieces, Token.chars]

/-- The same for several nodes. -/
lemma htmlAll_eq_flatMap_chars {nodes : List Node}
    (h : ∀ e ∈ elementsOfAll nodes, isRawText e.tag = false) :
    htmlAll false nodes = (piecesOfAll nodes).flatMap Token.chars := by
  match nodes with
  | [] => rfl
  | n :: rest =>
    rw [elementsOfAll, List.forall_mem_append] at h
    rw [htmlAll, piecesOfAll, List.flatMap_append, html_eq_flatMap_chars h.1,
      htmlAll_eq_flatMap_chars h.2]

end

end Node

/-- Without script and style elements, the HTML of a document is the row of its tokens as
they are written. -/
lemma Root.toList_toHtml {r : Root} (h : ∀ e ∈ r.elements, Markup.isRawText e.tag = false) :
    r.toHtml.toList = r.tokens.flatMap Markup.Token.chars := by
  rw [Root.toHtml, String.toList_ofList, Root.tokens, Markup.Token.chars_joinTexts]
  exact Node.htmlAll_eq_flatMap_chars h

end FencedCode
