import FencedCode.Proofs.Markup.Containment
import FencedCode.Proofs.Markup.ReadAlike

/-!
# Replacing payloads

Escaped texts and values outside of scripts and style sheets can be replaced by any others, and
a reader of the HTML finds the same tags, whatever the comments, scripts and style sheets of
the document are.  Comments and the texts in scripts and style sheets are not escaped; they can
be replaced as long as they end where they should, before and after.  The main result is
`readTags_of_replaced`, and `payloads_become_tags` shows what happens otherwise.
-/

namespace FencedCode

open Markup

namespace Node

/-! ## Without escaped payloads -/

mutual

/-- In the HTML of a node no bracket closes before one opens. -/
lemma opensFirst_html (n : Node) {rest : List Char} (h : OpensFirst rest) :
    OpensFirst (n.html false ++ rest) := by
  match n with
  | root children => exact opensFirst_htmlAll children h
  | element tag properties children => exact List.not_mem_nil
  | text value => exact h.append (lt_not_mem_escape .text _) (gt_not_mem_escape .text _)
  | comment value => exact List.not_mem_nil
  | doctype => exact List.not_mem_nil

/-- The same for several nodes. -/
lemma opensFirst_htmlAll (nodes : List Node) {rest : List Char} (h : OpensFirst rest) :
    OpensFirst (htmlAll false nodes ++ rest) := by
  match nodes with
  | [] => exact h
  | n :: nodes =>
    rw [htmlAll, List.append_assoc]
    exact opensFirst_html n (opensFirst_htmlAll nodes h)

end

mutual

/-- A node is read like the node without its escaped payloads. -/
lemma readAlike_html {n : Node} (hnames : ∀ name ∈ n.elements.flatMap Element.names, IsName name)
    {cs ds : List Char} (h : ReadAlike cs ds) (hopens : OpensFirst cs) :
    ReadAlike (n.html false ++ cs) ((n.blanked true).html false ++ ds) := by
  match n with
  | root children =>
    rw [elements] at hnames
    exact readAlike_htmlAll hnames h hopens
  | element tag properties children =>
    obtain ⟨hopening, hchildren⟩ := isReadable_opening_and hnames
    rw [blanked, html, html, startTag_eq, startTag_eq, List.append_assoc, List.append_assoc]
    refine ReadAlike.opening ?_ hopening properties.shapes_blanked.symm
    cases hvoid : isVoid tag with
    | true => exact h
    | false =>
      cases hraw : isRawText tag with
      | true =>
        exact h.append ((endsClosed_endTag tag).append (List.cons_ne_nil _ _) _)
      | false =>
        simp only [Bool.false_eq_true, if_false, Bool.and_false, List.append_assoc]
        exact readAlike_htmlAll hchildren (h.append (endsClosed_endTag tag)) List.not_mem_nil
  | text value =>
    exact h.append_left (lt_not_mem_escape .text _) (gt_not_mem_escape .text _) hopens
  | comment value => exact h.append (endsClosed_commentChars value)
  | doctype => exact h.append endsClosed_doctypeChars

/-- The same for several nodes. -/
lemma readAlike_htmlAll {nodes : List Node}
    (hnames : ∀ name ∈ (elementsOfAll nodes).flatMap Element.names, IsName name)
    {cs ds : List Char} (h : ReadAlike cs ds) (hopens : OpensFirst cs) :
    ReadAlike (htmlAll false nodes ++ cs) (htmlAll false (blankedAll true nodes) ++ ds) := by
  match nodes with
  | [] => exact h
  | n :: nodes =>
    rw [elementsOfAll, List.flatMap_append, List.forall_mem_append] at hnames
    rw [blankedAll, htmlAll, htmlAll, List.append_assoc, List.append_assoc]
    exact readAlike_html hnames.1 (readAlike_htmlAll hnames.2 h hopens)
      (opensFirst_htmlAll nodes hopens)

end

end Node

namespace Root

/-- A document is read like the document without its escaped payloads. -/
lemma readTags_withoutEscaped {r : Root} (hnames : ∀ name ∈ r.names, IsName name) :
    readTags r.withoutEscaped.toHtml = readTags r.toHtml := by
  have hnil : ReadAlike [] [] := ⟨rfl, rfl, fun _ _ => rfl⟩
  have halike := (Node.readAlike_htmlAll hnames hnil List.not_mem_nil).outside
  rw [List.append_nil, List.append_nil] at halike
  rw [readTags, readTags, toHtml, toHtml, String.toList_ofList, String.toList_ofList, halike]
  rfl

/-! ## The main result -/

/-- **Payloads can be replaced.**  Two documents that differ in escaped payloads only, in texts
outside of scripts and style sheets and in values of attributes, have the same tags for a
reader of their HTML.  So have two documents that differ in any payloads, and these are the
tags of the documents, if the comments, scripts and style sheets of both end where they
should. -/
theorem readTags_of_replaced (r s : Root) (hnames : ∀ name ∈ r.names, IsName name) :
    (r.withoutEscaped = s.withoutEscaped → readTags s.toHtml = readTags r.toHtml) ∧
      (r.withoutPayloads = s.withoutPayloads → r.isContained = true → s.isContained = true →
        readTags r.toHtml = r.tags ∧ readTags s.toHtml = r.tags) := by
  constructor
  · intro heq
    have hnames' : ∀ name ∈ s.names, IsName name := by
      rwa [← names_withoutEscaped s, ← heq, names_withoutEscaped r]
    rw [← readTags_withoutEscaped hnames', ← heq, readTags_withoutEscaped hnames]
  · intro heq hr hs
    have hnames' : ∀ name ∈ s.names, IsName name := by
      rwa [← names_withoutPayloads s, ← heq, names_withoutPayloads r]
    have htags : s.tags = r.tags := by
      rw [← tags_withoutPayloads s, ← heq, tags_withoutPayloads r]
    rw [readTags_toHtml hnames hr, readTags_toHtml hnames' hs, htags]
    exact ⟨rfl, rfl⟩

/-- A document with a payload of each kind, and a comment that is not written. -/
def withPayloads (value text comment script : String) : Root :=
  ⟨[.doctype, .comment comment,
    .element "script" (.ofList [("src", .text value)]) [.text script],
    .element "p" (.ofList [("title", .text value), ("hidden", .flag true)])
      [.text text, .element "br" {} [.comment "--><b>"]]]⟩

/-- The value and the text can be replaced even if the comment and the script end early, and
everything can be replaced if they do not. -/
theorem readTags_of_replaced_withPayloads :
    (∀ name ∈ (withPayloads "" "" "--><b" "</script><b>").names, IsName name) ∧
      readTags (withPayloads "\"><b>" "</p><b>" "--><b" "</script><b>").toHtml =
        readTags (withPayloads "" "" "--><b" "</script><b>").toHtml ∧
      (∀ name ∈ (withPayloads "" "" "" "").names, IsName name) ∧
      (withPayloads "" "" "" "").isContained = true ∧
      (withPayloads "\"><b>" "</p><b>" "<b>" "<b></b>").isContained = true ∧
      readTags (withPayloads "\"><b>" "</p><b>" "<b>" "<b></b>").toHtml =
        [.opening "script" [("src", true)], .closing "script",
          .opening "p" [("hidden", false), ("title", true)], .opening "br" [],
          .closing "p"] := by
  have hbroken : ∀ name ∈ (withPayloads "" "" "--><b" "</script><b>").names, IsName name := by
    decide
  have hnames : ∀ name ∈ (withPayloads "" "" "" "").names, IsName name := by decide
  have hempty : (withPayloads "" "" "" "").isContained = true := by decide
  have hfull : (withPayloads "\"><b>" "</p><b>" "<b>" "<b></b>").isContained = true := by decide
  have hescaped := (readTags_of_replaced (withPayloads "" "" "--><b" "</script><b>")
    (withPayloads "\"><b>" "</p><b>" "--><b" "</script><b>") hbroken).1 rfl
  have hall := (readTags_of_replaced (withPayloads "" "" "" "")
    (withPayloads "\"><b>" "</p><b>" "<b>" "<b></b>") hnames).2 rfl hempty hfull
  exact ⟨hbroken, hescaped, hnames, hempty, hfull, hall.2.trans rfl⟩

/-! ## Payloads that become tags -/

/-- A comment and a script that end early, a script in a script, whose end tag ends the outer
one, and a value in a script that comes to stand in a tag which a text has opened.  With other
payloads in these places a reader finds other tags. -/
theorem payloads_become_tags :
    readTags (toHtml ⟨[.comment ""]⟩) = [] ∧
      readTags (toHtml ⟨[.comment "--><b>"]⟩) = [.opening "b" []] ∧
      readTags (toHtml ⟨[.element "script" {} [.text ""]]⟩) =
        [.opening "script" [], .closing "script"] ∧
      readTags (toHtml ⟨[.element "script" {} [.text "</script><b>"]]⟩) =
        [.opening "script" [], .closing "script", .opening "b" [], .closing "script"] ∧
      readTags (toHtml ⟨[.element "script" {} [.element "script" {} [], .text ""]]⟩) =
        [.opening "script" [], .closing "script", .closing "script"] ∧
      readTags (toHtml ⟨[.element "script" {} [.element "script" {} [], .text "<b>"]]⟩) =
        [.opening "script" [], .closing "script", .opening "b" [], .closing "script"] ∧
      readTags (toHtml ⟨[.element "script" {} [.text "</script><a b=\"",
          .element "p" (.ofList [("title", .text "")]) []]]⟩) =
        [.opening "script" [], .closing "script", .opening "a" [], .closing "p",
          .closing "script"] ∧
      readTags (toHtml ⟨[.element "script" {} [.text "</script><a b=\"",
          .element "p" (.ofList [("title", .text " c")]) []]]⟩) =
        [.opening "script" [], .closing "script", .opening "a" [("b", true), ("c\"", false)],
          .closing "p", .closing "script"] ∧
      ¬∀ r s : Root, (∀ name ∈ r.names, IsName name) →
        r.withoutPayloads = s.withoutPayloads → readTags r.toHtml = readTags s.toHtml := by
  refine ⟨by decide +kernel, by decide +kernel, by decide +kernel, by decide +kernel,
    by decide +kernel, by decide +kernel, by decide +kernel, by decide +kernel, fun h => ?_⟩
  have hcomments := h ⟨[.comment ""]⟩ ⟨[.comment "--><b>"]⟩ (by decide) rfl
  exact absurd hcomments (by decide +kernel)

end Root

end FencedCode
