import FencedCode.Log
import FencedCode.Tree.Node

/-!
# Target blocks

A target block is a preformatted element whose first child is a code element with a certain
class.  `TargetBlock` says which tags and classes are meant, and what the wrapper looks like
that is put around such a block: an element with a marker class that holds the source of the
block in an attribute and the block itself as its only child.
-/

namespace FencedCode

/-- Which blocks are wrapped, and in what. -/
structure TargetBlock where
  /-- The tag of the block. -/
  blockTag : String
  /-- The tag of its first child. -/
  codeTag : String
  /-- The class that the first child has. -/
  languageClass : String
  /-- The tag of the wrapper. -/
  wrapperTag : String
  /-- The class of the wrapper. -/
  markerClass : String
  /-- The property of the wrapper that holds the source. -/
  rawCodeAttribute : String
  deriving DecidableEq

namespace TargetBlock

/-- The class that marks the code of a language. -/
def languageClassOf (language : String) : String :=
  "language-" ++ language

/-- The usual blocks of a language and the usual wrapper. -/
def forLanguage (language : String) : TargetBlock where
  blockTag := "pre"
  codeTag := "code"
  languageClass := languageClassOf language
  wrapperTag := "div"
  markerClass := "mermaid-wrapper"
  rawCodeAttribute := "data-mermaid-code"

/-- The usual blocks of the usual language. -/
def standard : TargetBlock :=
  forLanguage "mermaid"

instance : Inhabited TargetBlock :=
  ⟨standard⟩

/-- The code element of an element that has the tags of a target block. -/
def code? (t : TargetBlock) (e : Element) : Option Element :=
  if e.tag = t.blockTag then
    match e.children with
    | .element tag properties children :: _ =>
      if tag = t.codeTag then some ⟨tag, properties, children⟩ else none
    | _ => none
  else
    none

/-- Whether the classes of a code element are neither a text nor a list. -/
def hasScalarClass (code : Element) : Bool :=
  match code.properties.get? Properties.className with
  | some v => v.isScalar
  | none => false

/-- Whether an element is a target block, wherever it stands. -/
def isTarget (t : TargetBlock) (e : Element) : Bool :=
  match t.code? e with
  | some code => !hasScalarClass code && Properties.hasClass code.properties t.languageClass
  | none => false

/-- What is reported when an element is tested for being a target block. -/
def targetEvents (t : TargetBlock) (e : Element) : List Event :=
  match t.code? e with
  | some code => if hasScalarClass code then [.blockIgnored code.tag] else []
  | none => []

/-- Whether an element has the shape of a wrapper: the tag, the class, a text in the
source attribute and exactly one child. -/
def isWrapper (t : TargetBlock) (e : Element) : Bool :=
  e.tag = t.wrapperTag && Properties.hasClass e.properties t.markerClass &&
    e.children.length = 1 &&
    (((e.properties.get? t.rawCodeAttribute).bind PropertyValue.asText?).isSome)

/-- The properties of a wrapper with a given source. -/
def wrapperProperties (t : TargetBlock) (source : String) : Properties :=
  (NameMap.insert {} Properties.className (.list [t.markerClass])).insert
    t.rawCodeAttribute (.text source)

/-- The wrapper around an element, with a given source. -/
def wrapper (t : TargetBlock) (e : Element) (source : String) : Element :=
  ⟨t.wrapperTag, t.wrapperProperties source, [e.node]⟩

end TargetBlock

/-- Whether an element has the shape of a usual wrapper. -/
def isStandardWrapper (e : Element) : Bool :=
  TargetBlock.standard.isWrapper e

end FencedCode
