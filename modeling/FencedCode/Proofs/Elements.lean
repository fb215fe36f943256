import FencedCode.Tree.Node
import Mathlib.Tactic.Lemma

/-!
# The elements of a document

The elements of a document, in document order: an element comes before the elements below
it.
-/

namespace FencedCode

namespace Node

mutual

/-- The elements at and below a node, in document order. -/
def elements : Node → List Element
  | root children => elementsOfAll children
  | element tag properties children => ⟨tag, properties, children⟩ :: elementsOfAll children
  | _ => []

/-- The elements at and below several nodes, in document order. -/
def elementsOfAll : List Node → List Element
  | [] => []
  | n :: rest => elements n ++ elementsOfAll rest

end

@[simp] lemma elements_node (e : Element) :
    e.node.elements = e :: elementsOfAll e.children := by
  simp [Element.node, elements]

mutual

/-- The elements below an element of a node are elements of the node. -/
lemma mem_elements_trans {n : Node} {e f : Element} (he : e ∈ n.elements)
    (hf : f ∈ e.node.elements) : f ∈ n.elements := by
  match n with
  | root children =>
    rw [elements] at he ⊢
    exact mem_elementsOfAll_trans he hf
  | element tag properties children =>
    rw [elements, List.mem_cons] at he ⊢
    rcases he with rfl | hbelow
    · rwa [elements_node, List.mem_cons] at hf
    · exact .inr (mem_elementsOfAll_trans hbelow hf)
  | text _ => simp [elements] at he
  | comment _ => simp [elements] at he
  | doctype => simp [elements] at he

/-- The same for several nodes. -/
lemma mem_elementsOfAll_trans {nodes : List Node} {e f : Element}
    (he : e ∈ elementsOfAll nodes) (hf : f ∈ e.node.elements) : f ∈ elementsOfAll nodes := by
  match nodes with
  | [] => simp [elementsOfAll] at he
  | n :: rest =>
    rw [elementsOfAll, List.mem_append] at he ⊢
    exact he.imp (fun h => mem_elements_trans h hf) fun h => mem_elementsOfAll_trans h hf

end

end Node

/-- The elements of a document, in document order. -/
def Root.elements (r : Root) : List Element :=
  Node.elementsOfAll r.children

end FencedCode
