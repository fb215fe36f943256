import FencedCode.Proofs.Markup.WrapperTag
import FencedCode.Proofs.Text.ByteOrder

/-!
# The HTML of a wrapped document

Wrapping puts tags into the HTML of a document and changes nothing else in it.  `parts` takes
the HTML of a document apart, given what is to be written for the blocks that are to be
wrapped: a block can be written as it stands, between the tags of its wrapper, or not at all.
The HTML of the wrapped document is the one in which every block that is reached stands between
the tags, `html_onePass`; blocks below void elements are wrapped too, but they are not written.
If the wrapper is itself a void element, only its start tag is written, and the block is
missing.  The main result is `toHtml_wrap`.
-/

namespace FencedCode

namespace TargetBlock

open Markup

/-! ## HTML in parts -/

/-- A part of the HTML of a wrapped document. -/
inductive Part where
  /-- What the document itself brings. -/
  | own (chars : List Char)
  /-- The start tag of a wrapper, with its source. -/
  | opening (source : String)
  /-- The end tag of a wrapper. -/
  | closing

/-- Whether a part comes from the document itself. -/
def Part.isOwn : Part → Bool
  | own _ => true
  | _ => false

variable (t : TargetBlock)

/-- The text of a part. -/
def partChars : Part → List Char
  | .own chars => chars
  | .opening source => startTag t.wrapperTag (t.wrapperProperties source)
  | .closing => endTag t.wrapperTag

section Parts

variable (around : Element → List Part → List Part)

mutual

/-- The HTML of a node in parts; `around` says what is written for an element that is to be
wrapped, given the parts that are written for the element itself. -/
def partsAt (under raw : Bool) : Node → List Part
  | .root children => partsAmong false false children
  | .element tag properties children =>
    let e : Element := ⟨tag, properties, children⟩
    let own := .own (startTag tag properties) ::
      if isVoid tag then []
      else partsAmong (t.isWrapper e) (isRawText tag) children ++ [.own (endTag tag)]
    if t.isDue under e then around e own else own
  | .text value => [.own (textChars raw value)]
  | .comment value => [.own (commentChars value)]
  | .doctype => [.own doctypeChars]

/-- The HTML of several nodes in parts. -/
def partsAmong (under raw : Bool) : List Node → List Part
  | [] => []
  | n :: rest => partsAt under raw n ++ partsAmong under raw rest

end

/-- The HTML of a document in parts. -/
def parts (r : Root) : List Part :=
  t.partsAmong around false false r.children

/-- The parts that are written for an element itself. -/
def ownParts (e : Element) : List Part :=
  .own (startTag e.tag e.properties) ::
    if isVoid e.tag then []
    else t.partsAmong around (t.isWrapper e) (isRawText e.tag) e.children ++
      [.own (endTag e.tag)]

lemma partsAt_node (under raw : Bool) (e : Element) :
    t.partsAt around under raw e.node =
      if t.isDue under e then around e (t.ownParts around e) else t.ownParts around e := by
  rw [Element.node, partsAt]
  rfl

end Parts

/-- A block between the tags of its wrapper. -/
def betweenTags (e : Element) (own : List Part) : List Part :=
  .opening e.textContent :: own ++ [.closing]

/-- The start tag of a wrapper in the place of a block. -/
def startTagOnly (e : Element) (_ : List Part) : List Part :=
  [.opening e.textContent]

/-- What is written for a block when it is wrapped. -/
def written : Element → List Part → List Part :=
  if isVoid t.wrapperTag then startTagOnly else betweenTags

/-! ## The parts of a wrapped document -/

/-- An element is written in the same way wherever it stands. -/
lemma html_node (raw : Bool) (e : Element) :
    e.node.html raw = startTag e.tag e.properties ++
      if isVoid e.tag then []
      else Node.htmlAll (isRawText e.tag) e.children ++ endTag e.tag := by
  rw [Element.node, Node.html]

variable {t}

/-- A wrapper is written as what is in it between its tags, or as its start tag alone. -/
lemma html_wrapper {inner : Element} {own : List Part}
    (h : ∀ raw, inner.node.html raw = own.flatMap t.partChars) (raw : Bool) (e : Element) :
    (t.wrapper inner e.textContent).node.html raw = (t.written e own).flatMap t.partChars := by
  rw [html_node, wrapper, written]
  cases isVoid t.wrapperTag with
  | true => simp [startTagOnly, partChars]
  | false => simp [betweenTags, partChars, Node.htmlAll, h]

/-- An element whose children are rewritten, if these are. -/
lemma html_inner {e : Element}
    (h : ∀ under raw, Node.htmlAll raw (t.onePassAll under e.children) =
      (t.partsAmong t.written under raw e.children).flatMap t.partChars) (raw : Bool) :
    (t.inner e).node.html raw = (t.ownParts t.written e).flatMap t.partChars := by
  rw [html_node, inner, ownParts, h]
  cases isVoid e.tag with
  | true => simp [partChars]
  | false => simp [partChars]

mutual

/-- The HTML of a node after the one-pass rule is that of the node, with something else for
the blocks that are wrapped. -/
lemma html_onePass (under raw : Bool) (n : Node) :
    (t.onePass under n).html raw = (t.partsAt t.written under raw n).flatMap t.partChars := by
  match n with
  | .root children =>
    rw [onePass, Node.html, partsAt]
    exact html_onePassAll false false children
  | .element tag properties children =>
    have hinner := @html_inner t ⟨tag, properties, children⟩
      fun under raw => html_onePassAll under raw children
    change (t.onePass under (Element.node ⟨tag, properties, children⟩)).html raw =
      (t.partsAt t.written under raw (Element.node ⟨tag, properties, children⟩)).flatMap
        t.partChars
    rw [partsAt_node]
    cases hdue : t.isDue under ⟨tag, properties, children⟩ with
    | true =>
      rw [t.onePass_of_isDue hdue, if_pos rfl]
      exact html_wrapper hinner raw _
    | false =>
      rw [t.onePass_of_not_isDue hdue, if_neg Bool.false_ne_true]
      exact hinner raw
  | .text value => simp [onePass, partsAt, partChars, Node.html]
  | .comment value => simp [onePass, partsAt, partChars, Node.html]
  | .doctype => simp [onePass, partsAt, partChars, Node.html]

/-- The same for several nodes. -/
lemma html_onePassAll (under raw : Bool) (nodes : List Node) :
    Node.htmlAll raw (t.onePassAll under nodes) =
      (t.partsAmong t.written under raw nodes).flatMap t.partChars := by
  match nodes with
  | [] => rfl
  | n :: rest =>
    rw [onePassAll, Node.htmlAll, partsAmong, List.flatMap_append, html_onePass under raw n,
      html_onePassAll under raw rest]

end

/-! ## Without the tags of the wrappers -/

section OwnParts

variable {around around' : Element → List Part → List Part}

/-- If tags of wrappers are left out among the children of an element, then they are left out
in the element. -/
lemma filter_ownParts {e : Element}
    (h : ∀ under raw, (t.partsAmong around under raw e.children).filter Part.isOwn =
      t.partsAmong around' under raw e.children) :
    (t.ownParts around e).filter Part.isOwn = t.ownParts around' e := by
  rw [ownParts, ownParts]
  cases isVoid e.tag with
  | true => simp [Part.isOwn]
  | false => simp [List.filter_cons, Part.isOwn, h]

mutual

/-- Leaving out the tags of wrappers is a matter of what is written for the blocks. -/
lemma filter_partsAt
    (haround : ∀ e own, (around e own).filter Part.isOwn = around' e (own.filter Part.isOwn))
    (under raw : Bool) (n : Node) :
    (t.partsAt around under raw n).filter Part.isOwn = t.partsAt around' under raw n := by
  match n with
  | .root children =>
    rw [partsAt, partsAt]
    exact filter_partsAmong haround false false children
  | .element tag properties children =>
    have hown := @filter_ownParts t around around' ⟨tag, properties, children⟩
      fun under raw => filter_partsAmong haround under raw children
    change (t.partsAt around under raw (Element.node ⟨tag, properties, children⟩)).filter
      Part.isOwn = t.partsAt around' under raw (Element.node ⟨tag, properties, children⟩)
    rw [partsAt_node, partsAt_node]
    split
    · rw [haround, hown]
    · exact hown
  | .text value => rfl
  | .comment value => rfl
  | .doctype => rfl

/-- The same for several nodes. -/
lemma filter_partsAmong
    (haround : ∀ e own, (around e own).filter Part.isOwn = around' e (own.filter Part.isOwn))
    (under raw : Bool) (nodes : List Node) :
    (t.partsAmong around under raw nodes).filter Part.isOwn =
      t.partsAmong around' under raw nodes := by
  match nodes with
  | [] => rfl
  | n :: rest =>
    rw [partsAmong, partsAmong, List.filter_append, filter_partsAt haround under raw n,
      filter_partsAmong haround under raw rest]

end

end OwnParts

mutual

/-- With every block written as it stands, the parts are the HTML of the node. -/
lemma flatMap_partsAt (under raw : Bool) (n : Node) :
    (t.partsAt (fun _ own => own) under raw n).flatMap t.partChars = n.html raw := by
  match n with
  | .root children =>
    rw [partsAt, Node.html]
    exact flatMap_partsAmong false false children
  | .element tag properties children =>
    have hchildren := fun under raw => flatMap_partsAmong under raw children
    change (t.partsAt (fun _ own => own) under raw
      (Element.node ⟨tag, properties, children⟩)).flatMap t.partChars = _
    rw [partsAt_node, ite_self, ownParts, Node.html]
    cases isVoid tag with
    | true => simp [partChars]
    | false => simp [partChars, hchildren]
  | .text value => simp [partsAt, partChars, Node.html]
  | .comment value => simp [partsAt, partChars, Node.html]
  | .doctype => simp [partsAt, partChars, Node.html]

/-- The same for several nodes. -/
lemma flatMap_partsAmong (under raw : Bool) (nodes : List Node) :
    (t.partsAmong (fun _ own => own) under raw nodes).flatMap t.partChars =
      Node.htmlAll raw nodes := by
  match nodes with
  | [] => rfl
  | n :: rest =>
    rw [partsAmong, List.flatMap_append, Node.htmlAll, flatMap_partsAt under raw n,
      flatMap_partsAmong under raw rest]

end

/-! ## The start tag -/

/-- An attribute with a value, as it is written. -/
def attributeText (name value : String) : List Char :=
  ' ' :: name.toList ++ "=\"".toList ++ escape .attribute value.toList ++ ['"']

lemma chars_eq_attributeText (name value : String) :
    Attribute.chars ⟨name, some value⟩ = attributeText name value := by
  have hequals : "=\"".toList = ['=', '"'] := rfl
  simp [Attribute.chars, attributeText, hequals]

/-- The property whose name is smaller comes first. -/
lemma attributes_wrapperProperties_eq (hattr : t.rawCodeAttribute ≠ Properties.className)
    (source : String) :
    (t.wrapperProperties source).attributes =
      if Properties.className < t.rawCodeAttribute then
        [⟨"class", some t.markerClass⟩, ⟨attributeName t.rawCodeAttribute, some source⟩]
      else
        [⟨attributeName t.rawCodeAttribute, some source⟩, ⟨"class", some t.markerClass⟩] := by
  have hentries : (t.wrapperProperties source).entries =
      NameMap.insertIn t.rawCodeAttribute (.text source)
        [(Properties.className, .list [t.markerClass])] := rfl
  rw [Properties.attributes, hentries, NameMap.insertIn]
  by_cases hlt : Properties.className < t.rawCodeAttribute
  · rw [if_pos hlt, if_neg (String.lt_asymm hlt), if_neg hattr.symm]
    rfl
  · have hgt : t.rawCodeAttribute < Properties.className :=
      Std.lt_of_le_of_ne (String.not_lt.1 hlt) hattr
    rw [if_neg hlt, if_pos hgt]
    rfl

/-- The start tag of a wrapper has the class and the source, in the order of the bytes of the
names of the properties. -/
lemma partChars_opening (hattr : t.rawCodeAttribute ≠ Properties.className) (source : String) :
    t.partChars (.opening source) =
      '<' :: t.wrapperTag.toList ++
        (if Text.bytes Properties.className < Text.bytes t.rawCodeAttribute then
          attributeText "class" t.markerClass ++
            attributeText (attributeName t.rawCodeAttribute) source
        else
          attributeText (attributeName t.rawCodeAttribute) source ++
            attributeText "class" t.markerClass) ++ ['>'] := by
  rw [partChars, startTag, attributes_wrapperProperties_eq hattr]
  simp only [Text.bytes_lt_iff]
  split
  · rw [List.flatMap_cons, List.flatMap_singleton, chars_eq_attributeText,
      chars_eq_attributeText]
  · rw [List.flatMap_cons, List.flatMap_singleton, chars_eq_attributeText,
      chars_eq_attributeText]

/-! ## The main result -/

/-- **Wrapping adds tags to the HTML.**  If the source of a block does not take the place of
the classes of its wrapper, then the HTML of a wrapped document is that of the document with
the tags of a wrapper around every block that is to be wrapped and is written; without these
tags it is the HTML of the document.  If the wrapper is a void element, the start tag takes the
place of the block, and nothing of the block is left.  The start tag has two attributes, the
class and the source, in the order of the bytes of the names of the properties. -/
theorem toHtml_wrap (t : TargetBlock) (hattr : t.rawCodeAttribute ≠ Properties.className)
    (r : Root) :
    (isVoid t.wrapperTag = false →
      (t.wrap r).1.toHtml.toList = (t.parts betweenTags r).flatMap t.partChars ∧
      ((t.parts betweenTags r).filter Part.isOwn).flatMap t.partChars = r.toHtml.toList) ∧
    (isVoid t.wrapperTag = true →
      (t.wrap r).1.toHtml.toList = (t.parts startTagOnly r).flatMap t.partChars ∧
      (t.parts startTagOnly r).filter Part.isOwn = t.parts (fun _ _ => []) r) ∧
    ∀ source, t.partChars (.opening source) =
      '<' :: t.wrapperTag.toList ++
        (if Text.bytes Properties.className < Text.bytes t.rawCodeAttribute then
          attributeText "class" t.markerClass ++
            attributeText (attributeName t.rawCodeAttribute) source
        else
          attributeText (attributeName t.rawCodeAttribute) source ++
            attributeText "class" t.markerClass) ++ ['>'] := by
  have hwritten : (t.wrap r).1.toHtml.toList = (t.parts t.written r).flatMap t.partChars := by
    rw [wrap_eq hattr, Root.toHtml, String.toList_ofList, html_onePassAll, parts]
  refine ⟨fun hvoid => ⟨?_, ?_⟩, fun hvoid => ⟨?_, ?_⟩, partChars_opening hattr⟩
  · rw [hwritten, written, hvoid, if_neg Bool.false_ne_true]
  · have hfilter := @filter_partsAmong t betweenTags (fun _ own => own)
      (fun e own => by simp [betweenTags, Part.isOwn]) false false r.children
    rw [parts, hfilter, flatMap_partsAmong, Root.toHtml, String.toList_ofList]
  · rw [hwritten, written, if_pos hvoid]
  · exact @filter_partsAmong t startTagOnly (fun _ _ => []) (fun _ _ => rfl) false false
      r.children

/-- A document with a block in the code of a block in a script, and one in a void element. -/
def scriptBlocks : Root :=
  ⟨[.root [.element "script" {} [.text "1<2",
      (standard.block {} [.text "\"A\"", (standard.block {} [.text "B"]).node]).node]],
    .element "img" {} [(standard.block {} [.text "C"]).node]]⟩

/-- The usual wrappers are put around the two blocks that are written, and a wrapper that is a
line break takes the place of the outer one. -/
theorem toHtml_wrap_scriptBlocks :
    standard.rawCodeAttribute ≠ Properties.className ∧
      isVoid standard.wrapperTag = false ∧
      (standard.wrap scriptBlocks).1.toHtml.toList =
        ["<script>", "1<2", "<div class=\"mermaid-wrapper\"",
          " data-mermaid-code=\"&quot;A&quot;B\">", "<pre>",
          "<code class=\"language-mermaid\">", "\"A\"", "<div class=\"mermaid-wrapper\"",
          " data-mermaid-code=\"B\">", "<pre>", "<code class=\"language-mermaid\">", "B",
          "</code></pre></div>", "</code></pre></div>", "</script>", "<img>"].flatMap
            String.toList ∧
      ((standard.parts betweenTags scriptBlocks).filter Part.isOwn).flatMap
        standard.partChars = scriptBlocks.toHtml.toList ∧
      isVoid { standard with wrapperTag := "br" }.wrapperTag = true ∧
      (wrap { standard with wrapperTag := "br" } scriptBlocks).1.toHtml.toList =
        ["<script>", "1<2", "<br class=\"mermaid-wrapper\"",
          " data-mermaid-code=\"&quot;A&quot;B\">", "</script>", "<img>"].flatMap
            String.toList := by
  have hattr : standard.rawCodeAttribute ≠ Properties.className := by decide
  have hdiv : isVoid standard.wrapperTag = false := by decide
  have hbr : isVoid { standard with wrapperTag := "br" }.wrapperTag = true := by decide
  have htags := (toHtml_wrap standard hattr scriptBlocks).1 hdiv
  have hbreak := (toHtml_wrap { standard with wrapperTag := "br" } hattr scriptBlocks).2.1 hbr
  exact ⟨hattr, hdiv, htags.1.trans (by decide +kernel), htags.2, hbr,
    hbreak.1.trans (by decide +kernel)⟩

end TargetBlock

end FencedCode
