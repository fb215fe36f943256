import FencedCode.Tree.Properties

/-!
# Document trees

A document is a tree of five kinds of nodes.  Roots and elements have children; texts,
comments and document types are leaves.  A root stands at the top of a document, but the
format allows one anywhere.  `Root` and `Element` are the nodes of those two kinds taken out
of the tree.
-/

namespace FencedCode

/-- A node of a document. -/
inductive Node where
  /-- A list of nodes without a tag of its own. -/
  | root (children : List Node)
  /-- A tag with properties and children. -/
  | element (tag : String) (properties : Properties) (children : List Node)
  /-- A text. -/
  | text (value : String)
  /-- A comment. -/
  | comment (value : String)
  /-- The document type. -/
  | doctype

instance : Inhabited Node :=
  ⟨.doctype⟩

/-- A whole document. -/
structure Root where
  /-- The nodes at the top level. -/
  children : List Node
  deriving Inhabited

/-- An element. -/
structure Element where
  /-- The name of the element. -/
  tag : String
  /-- The properties. -/
  properties : Properties := {}
  /-- The children. -/
  children : List Node := []
  deriving Inhabited

/-- The root as a node. -/
def Root.node (r : Root) : Node :=
  .root r.children

/-- The element as a node. -/
def Element.node (e : Element) : Node :=
  .element e.tag e.properties e.children

/-- The five kinds of nodes. -/
inductive Kind where
  | root
  | element
  | text
  | comment
  | doctype
  deriving DecidableEq

namespace Kind

/-- The name of a kind, as it is written in documents. -/
def name : Kind → String
  | root => "root"
  | element => "element"
  | text => "text"
  | comment => "comment"
  | doctype => "doctype"

/-- The kinds in the order in which messages list them. -/
def all : List Kind :=
  [root, element, text, comment, doctype]

/-- The kind with a given name. -/
def ofName? (s : String) : Option Kind :=
  all.find? fun k => k.name = s

/-- Reading a name finds the kind. -/
theorem ofName?_name (k : Kind) : ofName? k.name = some k := by
  cases k <;> decide

end Kind

namespace Node

/-- The kind of a node. -/
def kind : Node → Kind
  | root _ => .root
  | element .. => .element
  | text _ => .text
  | comment _ => .comment
  | doctype => .doctype

/-- The children of a node that can have some. -/
def children? : Node → Option (List Node)
  | root children => some children
  | element _ _ children => some children
  | _ => none

/-- The node as an element. -/
def element? : Node → Option Element
  | element tag properties children => some ⟨tag, properties, children⟩
  | _ => none

/-- Whether the node is an element with a given tag. -/
def isElementNamed (n : Node) (tag : String) : Bool :=
  match n with
  | element t _ _ => t = tag
  | _ => false

mutual

/-- The texts below a node in order, run together.  Comments do not count. -/
def textContent : Node → String
  | root children => textOfAll children
  | element _ _ children => textOfAll children
  | text value => value
  | comment _ => ""
  | doctype => ""

/-- The texts below a list of nodes in order, run together. -/
def textOfAll : List Node → String
  | [] => ""
  | n :: rest => textContent n ++ textOfAll rest

end

mutual

/-- The greatest number of nodes on a way down from a node, the node included. -/
def height : Node → Nat
  | root children => heightOfAll children + 1
  | element _ _ children => heightOfAll children + 1
  | text _ => 1
  | comment _ => 1
  | doctype => 1

/-- The height of the highest of several nodes. -/
def heightOfAll : List Node → Nat
  | [] => 0
  | n :: rest => max (height n) (heightOfAll rest)

end

mutual

/-- Equality of trees in which numbers are compared numerically. -/
def equals : Node → Node → Bool
  | root xs, root ys => allEqual xs ys
  | element s p xs, element t q ys => s == t && p.equals q && allEqual xs ys
  | text a, text b => a == b
  | comment a, comment b => a == b
  | doctype, doctype => true
  | _, _ => false

/-- Equality of lists of trees in which numbers are compared numerically. -/
def allEqual : List Node → List Node → Bool
  | [], [] => true
  | x :: xs, y :: ys => equals x y && allEqual xs ys
  | _, _ => false

end

end Node

namespace Element

/-- The texts below the element in order, run together. -/
def textContent (e : Element) : String :=
  Node.textOfAll e.children

/-- Changes the properties. -/
def mapProperties (f : Properties → Properties) (e : Element) : Element :=
  { e with properties := f e.properties }

end Element

namespace Root

/-- The texts of the document in order, run together. -/
def textContent (r : Root) : String :=
  Node.textOfAll r.children

/-- Equality of documents in which numbers are compared numerically. -/
def equals (r s : Root) : Bool :=
  Node.allEqual r.children s.children

end Root

end FencedCode
