import FencedCode.Markup.Attribute
import FencedCode.Tree.Node

/-!
# Documents as HTML

Roots leave no trace in HTML, and every other node is written where it stands.  A void
element is its start tag alone, whatever children it has.  The texts directly below a
script or a style sheet are written as they are.
-/

namespace FencedCode

namespace Markup

/-- The elements that have no content and no end tag. -/
def voidTags : List String :=
  ["area", "base", "br", "col", "embed", "hr", "img", "input", "link", "meta", "source",
    "track", "wbr"]

/-- The elements whose own texts are not escaped. -/
def rawTextTags : List String :=
  ["script", "style"]

/-- Whether an element has no content and no end tag. -/
def isVoid (tag : String) : Bool :=
  voidTags.contains tag

/-- Whether the texts directly below an element are not escaped. -/
def isRawText (tag : String) : Bool :=
  rawTextTags.contains tag

/-- The start tag of an element. -/
def startTag (tag : String) (p : Properties) : List Char :=
  '<' :: tag.toList ++ p.attributes.flatMap Attribute.chars ++ ['>']

/-- The end tag of an element. -/
def endTag (tag : String) : List Char :=
  '<' :: '/' :: tag.toList ++ ['>']

/-- The text of a comment. -/
def commentChars (value : String) : List Char :=
  ['<', '!', '-', '-'] ++ value.toList ++ ['-', '-', '>']

/-- The text of the document type. -/
def doctypeChars : List Char :=
  "<!doctype html>".toList

/-- The text of a text node. -/
def textChars (raw : Bool) (value : String) : List Char :=
  if raw then value.toList else escape .text value.toList

end Markup

namespace Node

open Markup

mutual

/-- The HTML of a node; `raw` says whether it stands directly below a raw text element. -/
def html (raw : Bool) : Node → List Char
  | root children => htmlAll false children
  | element tag properties children =>
    startTag tag properties ++
      if isVoid tag then [] else htmlAll (isRawText tag) children ++ endTag tag
  | text value => textChars raw value
  | comment value => commentChars value
  | doctype => doctypeChars

/-- The HTML of several nodes in a row. -/
def htmlAll (raw : Bool) : List Node → List Char
  | [] => []
  | n :: rest => html raw n ++ htmlAll raw rest

end

/-- The HTML of a node on its own. -/
def toHtml (n : Node) : String :=
  String.ofList (n.html false)

end Node

/-- The HTML of a document. -/
def Root.toHtml (r : Root) : String :=
  String.ofList (Node.htmlAll false r.children)

end FencedCode
