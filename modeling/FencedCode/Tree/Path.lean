import FencedCode.Tree.Node

/-!
# Places in a document

A node of a document is found by the way down to it: a list of child positions, counted
from zero.
-/

namespace FencedCode.Root

/-- The node that a way down a list of nodes leads to; the empty way leads to none. -/
def nodeAmong? (nodes : List Node) : List Nat → Option Node
  | [] => none
  | i :: rest =>
    match nodes[i]? with
    | none => none
    | some n => if rest.isEmpty then some n else nodeAmong? (n.children?.getD []) rest

/-- The node at a place below the top. -/
def nodeAt? (r : Root) (way : List Nat) : Option Node :=
  nodeAmong? r.children way

/-- The node with other children, if it can have some. -/
def withChildren (children : List Node) : Node → Node
  | .root _ => .root children
  | .element tag properties _ => .element tag properties children
  | n => n

/-- Changes the node that a way down a list of nodes leads to. -/
def updateAmong (f : Node → Node) (nodes : List Node) : List Nat → List Node
  | [] => nodes
  | i :: rest =>
    match nodes[i]? with
    | none => nodes
    | some n =>
      if rest.isEmpty then nodes.set i (f n)
      else nodes.set i (withChildren (updateAmong f (n.children?.getD []) rest) n)

/-- Changes the node at a place below the top. -/
def updateAt (r : Root) (way : List Nat) (f : Node → Node) : Root :=
  ⟨updateAmong f r.children way⟩

end FencedCode.Root
