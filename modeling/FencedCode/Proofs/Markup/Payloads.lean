import FencedCode.Proofs.Markup.Tags
import FencedCode.Proofs.PropertyMaps

/-!
# Payloads

The payloads of a document are its texts, its comments and the values of its attributes.  The
values and most texts are escaped when they are written; comments and what is in a script or a
style sheet are not.  Two documents differ in their payloads only if they are the same without
them, `Root.withoutPayloads`, and they differ in escaped payloads only if they are the same
without those, `Root.withoutEscaped`.  The names and the tags of a document do not depend on
its payloads, `names_blanked` and `tagsOfAll_blanked`.
-/

namespace FencedCode

open Markup

/-! ## Leaving payloads out -/

/-- The value of a property without its text.  A switch has no text. -/
def PropertyValue.blanked : PropertyValue → PropertyValue
  | flag on => flag on
  | _ => text ""

/-- Properties without the texts of their values. -/
def Properties.blanked (p : Properties) : Properties :=
  p.filterMap fun v => some v.blanked

namespace Node

mutual

/-- A node without the payloads at and below it; `kept` says whether those stay that are
written as they are. -/
def blanked (kept : Bool) : Node → Node
  | root children => root (blankedAll kept children)
  | element tag properties children =>
    element tag properties.blanked
      (if kept && isRawText tag then children else blankedAll kept children)
  | text _ => text ""
  | comment value => comment (if kept then value else "")
  | doctype => doctype

/-- The same for several nodes. -/
def blankedAll (kept : Bool) : List Node → List Node
  | [] => []
  | n :: rest => blanked kept n :: blankedAll kept rest

end

end Node

namespace Root

/-- The document without its texts, comments and the values of its attributes. -/
def withoutPayloads (r : Root) : Root :=
  ⟨Node.blankedAll false r.children⟩

/-- The document without its texts and the values of its attributes, except for those in
scripts and style sheets. -/
def withoutEscaped (r : Root) : Root :=
  ⟨Node.blankedAll true r.children⟩

end Root

/-! ## Names -/

/-- The names that are written into the tags of an element. -/
def Element.names (e : Element) : List String :=
  e.tag :: e.properties.entries.map Prod.fst

/-- The names that are written into tags. -/
def Root.names (r : Root) : List String :=
  r.elements.flatMap Element.names

lemma Properties.entries_blanked (p : Properties) :
    p.blanked.entries = p.entries.map fun e => (e.1, e.2.blanked) :=
  NameMap.entries_filterMap_some PropertyValue.blanked p

/-- Only the values change. -/
lemma Properties.names_blanked (p : Properties) :
    p.blanked.entries.map Prod.fst = p.entries.map Prod.fst := by
  rw [entries_blanked, List.map_map]
  rfl

namespace Node

mutual

/-- A node has the same names without its payloads. -/
lemma names_blanked (kept : Bool) (n : Node) :
    (n.blanked kept).elements.flatMap Element.names = n.elements.flatMap Element.names := by
  match n with
  | root children => rw [blanked, elements, elements, names_blankedAll kept children]
  | element tag properties children =>
    have hchildren : (elementsOfAll (if kept && isRawText tag then children
        else blankedAll kept children)).flatMap Element.names =
          (elementsOfAll children).flatMap Element.names := by
      split
      · rfl
      · exact names_blankedAll kept children
    rw [blanked, elements, elements, List.flatMap_cons, List.flatMap_cons, hchildren,
      Element.names, Element.names, Properties.names_blanked]
  | text value => rfl
  | comment value => rfl
  | doctype => rfl

/-- The same for several nodes. -/
lemma names_blankedAll (kept : Bool) (nodes : List Node) :
    (elementsOfAll (blankedAll kept nodes)).flatMap Element.names =
      (elementsOfAll nodes).flatMap Element.names := by
  match nodes with
  | [] => rfl
  | n :: rest =>
    rw [blankedAll, elementsOfAll, elementsOfAll, List.flatMap_append, List.flatMap_append,
      names_blanked kept n, names_blankedAll kept rest]

end

end Node

lemma Root.names_withoutPayloads (r : Root) : r.withoutPayloads.names = r.names :=
  Node.names_blankedAll false r.children

lemma Root.names_withoutEscaped (r : Root) : r.withoutEscaped.names = r.names :=
  Node.names_blankedAll true r.children

/-- The start tag of an element is a token. -/
lemma Markup.startTag_eq (tag : String) (p : Properties) :
    startTag tag p = (Token.opening tag p.attributes).chars :=
  rfl

/-- Properties with proper names become attributes with proper names. -/
lemma Element.isName_of_mem_attributes {e : Element} (h : ∀ name ∈ e.names, IsName name)
    {a : Attribute} (ha : a ∈ e.properties.attributes) : IsName a.name := by
  obtain ⟨p, hp, hattribute⟩ := List.mem_filterMap.1 ha
  obtain ⟨value, -, rfl⟩ := Option.map_eq_some_iff.1 hattribute
  have hname : p.1 ∈ e.names := List.mem_cons_of_mem _ (List.mem_map_of_mem hp)
  exact (h p.1 hname).attributeName

/-- If all names are proper, then the start tag of an element is readable and the names below
the element are proper. -/
lemma Node.isReadable_opening_and {tag : String} {p : Properties} {children : List Node}
    (h : ∀ name ∈ (element tag p children).elements.flatMap Element.names, IsName name) :
    (Token.opening tag p.attributes).IsReadable ∧
      ∀ name ∈ (elementsOfAll children).flatMap Element.names, IsName name := by
  rw [elements, List.flatMap_cons, List.forall_mem_append] at h
  have htag : IsName tag := h.1 tag List.mem_cons_self
  exact ⟨⟨htag, fun a ha => Element.isName_of_mem_attributes h.1 ha⟩, h.2⟩

/-! ## Tags -/

namespace Node

mutual

/-- The tags of a node.  In a script or a style sheet there are none. -/
def tags : Node → List Tag
  | root children => tagsOfAll children
  | element tag properties children =>
    .opening tag (properties.attributes.map Attribute.shape) ::
      if isVoid tag then []
      else (if isRawText tag then [] else tagsOfAll children) ++ [.closing tag]
  | text _ => []
  | comment _ => []
  | doctype => []

/-- The tags of several nodes. -/
def tagsOfAll : List Node → List Tag
  | [] => []
  | n :: rest => tags n ++ tagsOfAll rest

end

end Node

/-- The tags of a document. -/
def Root.tags (r : Root) : List Tag :=
  Node.tagsOfAll r.children

/-- A value is left out, stands alone or has a text whatever the text is. -/
lemma PropertyValue.isSome_attributeValue_blanked (v : PropertyValue) :
    v.blanked.attributeValue?.map Option.isSome = v.attributeValue?.map Option.isSome := by
  cases v with
  | flag on => rfl
  | number x => rfl
  | text s => rfl
  | list items => rfl

lemma Properties.shapes_attributes (p : Properties) :
    p.attributes.map Attribute.shape = p.entries.filterMap fun e =>
      (e.2.attributeValue?.map Option.isSome).map fun hasValue =>
        (attributeName e.1, hasValue) := by
  rw [attributes, List.map_filterMap]
  refine List.filterMap_congr fun e _ => ?_
  rw [Option.map_map, Option.map_map]
  rfl

/-- The attributes stay the same but for their values. -/
lemma Properties.shapes_blanked (p : Properties) :
    p.blanked.attributes.map Attribute.shape = p.attributes.map Attribute.shape := by
  rw [shapes_attributes, shapes_attributes, entries_blanked, List.filterMap_map]
  refine List.filterMap_congr fun e _ => ?_
  rw [Function.comp_apply, PropertyValue.isSome_attributeValue_blanked]

namespace Node

mutual

/-- A node has the same tags without its payloads. -/
lemma tags_blanked (n : Node) : (n.blanked false).tags = n.tags := by
  match n with
  | root children => rw [blanked, tags, tags, tagsOfAll_blanked children]
  | element tag properties children =>
    rw [blanked, Bool.false_and, if_neg Bool.false_ne_true, tags, tags,
      Properties.shapes_blanked, tagsOfAll_blanked children]
  | text value => rfl
  | comment value => rfl
  | doctype => rfl

/-- The same for several nodes. -/
lemma tagsOfAll_blanked (nodes : List Node) :
    tagsOfAll (blankedAll false nodes) = tagsOfAll nodes := by
  match nodes with
  | [] => rfl
  | n :: rest =>
    rw [blankedAll, tagsOfAll, tagsOfAll, tags_blanked n, tagsOfAll_blanked rest]

end

end Node

lemma Root.tags_withoutPayloads (r : Root) : r.withoutPayloads.tags = r.tags :=
  Node.tagsOfAll_blanked r.children

end FencedCode
