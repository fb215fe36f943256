import FencedCode.Proofs.Markup.Payloads

/-!
# Payloads that stay where they are

Escaped texts and values always stay where they are written.  A comment stays inside its marks
if the mark that ends comments does not occur in it, and what is in a script or a style sheet
stays there if the start of the end tag does not occur in it.  If all payloads stay, then a
reader of the HTML finds the tags of the document and no others, `readTags_toHtml`.
-/

namespace FencedCode

open Markup

/-! ## Documents whose payloads stay -/

namespace Node

mutual

/-- Whether the comments, scripts and style sheets that are written for a node end where they
should. -/
def isContained : Node → Bool
  | root children => allContained children
  | element tag _ children =>
    isVoid tag ||
      if isRawText tag then decide (¬endMark tag <:+: htmlAll true children)
      else allContained children
  | comment value => decide (¬commentEnd <:+: value.toList)
  | _ => true

/-- The same for several nodes. -/
def allContained : List Node → Bool
  | [] => true
  | n :: rest => isContained n && allContained rest

end

end Node

/-- Whether the comments, scripts and style sheets in the HTML of a document end where they
should. -/
def Root.isContained (r : Root) : Bool :=
  Node.allContained r.children

namespace Markup

/-! ## Scripts and style sheets -/

/-- Only the first character of the mark is an angle bracket. -/
lemma lt_not_mem_tail_endMark {tag : String} (h : IsName tag) :
    '<' ∉ (endMark tag).tail := by
  rw [endMark, List.tail_cons, List.mem_cons, not_or]
  exact ⟨by decide, h.not_mem (by decide)⟩

/-- The start of an end tag is found behind a text that it does not occur in: it cannot start
in the text, for the end tag brings an angle bracket of its own. -/
lemma fromMark_endTag {tag : String} (htag : IsName tag) {s : List Char}
    (h : ¬endMark tag <:+: s) (rest : List Char) :
    fromMark (endMark tag) (s ++ (endTag tag ++ rest)) = endTag tag ++ rest := by
  have hpassed : IsPassed (endMark tag) s (endTag tag ++ rest) := by
    refine (isPassed_or_isInfix fun u m hu _ hm hback hmark => ?_).resolve_right h
    obtain ⟨c, u, rfl⟩ := List.exists_cons_of_ne_nil hu
    obtain ⟨d, m, rfl⟩ := List.exists_cons_of_ne_nil hm
    have hd : d = '<' := (List.cons_prefix_cons.1 hback).1
    refine lt_not_mem_tail_endMark htag ?_
    rw [hmark, hd]
    exact List.mem_append_right u List.mem_cons_self
  have hfront : endMark tag <+: endTag tag ++ rest :=
    (List.prefix_append (endMark tag) ['>']).trans (List.prefix_append (endTag tag) rest)
  rw [fromMark_append hpassed]
  exact fromMark_of_isPrefix (List.cons_ne_nil _ _) hfront

lemma isRawText_of_isVoid {tag : String} (h : isVoid tag = true) : isRawText tag = false := by
  have hdisjoint : ∀ tag ∈ voidTags, isRawText tag = false := by decide
  exact hdisjoint tag (List.contains_iff_mem.1 h)

end Markup

/-! ## The tags of the HTML -/

namespace Node

mutual

/-- A reader finds the tags of a node and goes on behind it. -/
lemma tagsIn_html {n : Node} (hnames : ∀ name ∈ n.elements.flatMap Element.names, IsName name)
    (h : n.isContained = true) (rest : List Char) :
    tagsIn (n.html false ++ rest) = n.tags ++ tagsIn rest := by
  match n with
  | root children =>
    rw [elements] at hnames
    rw [isContained] at h
    rw [html, tags]
    exact tagsIn_htmlAll hnames h rest
  | element tag p children =>
    obtain ⟨hopening, hchildren⟩ := isReadable_opening_and hnames
    rw [html, startTag_eq, List.append_assoc, tagsIn_opening hopening, tags]
    rw [isContained] at h
    cases hvoid : isVoid tag with
    | true =>
      rw [isRawText_of_isVoid hvoid]
      rfl
    | false =>
      rw [hvoid, Bool.false_or] at h
      cases hraw : isRawText tag with
      | true =>
        rw [if_pos hraw] at h
        have hcontent : ¬endMark tag <:+: htmlAll true children := of_decide_eq_true h
        simp only [if_true, Bool.false_eq_true, if_false, List.append_assoc]
        rw [fromMark_endTag hopening.1 hcontent, tagsIn_endTag hopening.1]
        rfl
      | false =>
        rw [hraw, if_neg Bool.false_ne_true] at h
        simp only [Bool.false_eq_true, if_false, List.append_assoc]
        rw [tagsIn_htmlAll hchildren h, tagsIn_endTag hopening.1]
        simp
  | text value =>
    rw [tags]
    exact tagsIn_append_of_not_mem (lt_not_mem_escape .text value.toList) rest
  | comment value =>
    rw [tags]
    exact tagsIn_comment (of_decide_eq_true h) rest
  | doctype =>
    rw [tags]
    exact tagsIn_doctype rest

/-- The same for several nodes. -/
lemma tagsIn_htmlAll {nodes : List Node}
    (hnames : ∀ name ∈ (elementsOfAll nodes).flatMap Element.names, IsName name)
    (h : allContained nodes = true) (rest : List Char) :
    tagsIn (htmlAll false nodes ++ rest) = tagsOfAll nodes ++ tagsIn rest := by
  match nodes with
  | [] => rfl
  | n :: nodes =>
    rw [elementsOfAll, List.flatMap_append, List.forall_mem_append] at hnames
    rw [allContained, Bool.and_eq_true] at h
    rw [htmlAll, List.append_assoc, tagsIn_html hnames.1 h.1, tagsIn_htmlAll hnames.2 h.2,
      tagsOfAll, List.append_assoc]

end

end Node

/-- The tags in the HTML of a document are those of the document if all payloads stay. -/
lemma Root.readTags_toHtml {r : Root} (hnames : ∀ name ∈ r.names, IsName name)
    (h : r.isContained = true) : readTags r.toHtml = r.tags := by
  have htags := Node.tagsIn_htmlAll hnames h []
  rw [List.append_nil, tagsIn_nil, List.append_nil] at htags
  rw [readTags, toHtml, String.toList_ofList, htags, tags]

end FencedCode
