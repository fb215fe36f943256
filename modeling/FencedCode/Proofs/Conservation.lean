import FencedCode.Proofs.Elements
import FencedCode.Proofs.Wrapping
import Mathlib.Data.List.Perm.Basic

/-!
# What wrapping keeps

The elements of a wrapped document are those of the document, each with its children as the
one-pass rule leaves them, and beside them one wrapper for every block that is wrapped,
`elements_wrap_perm`.  Whatever is counted over elements follows from that.  The main result
is `wrap_conserves`: so many wrappers and so many nodes more as blocks are wrapped, the same
text, and, in a document that had no wrapper before, wrappers of one form only.
-/

namespace FencedCode

/-! ## The number of nodes -/

namespace Node

mutual

/-- The number of nodes at and below a node. -/
def size : Node → Nat
  | root children => sizeOfAll children + 1
  | element _ _ children => sizeOfAll children + 1
  | text _ => 1
  | comment _ => 1
  | doctype => 1

/-- The number of nodes at and below several nodes. -/
def sizeOfAll : List Node → Nat
  | [] => 0
  | n :: rest => size n + sizeOfAll rest

end

end Node

/-- The number of nodes of a document, its root included. -/
def Root.size (r : Root) : Nat :=
  r.node.size

lemma Root.size_eq (r : Root) : r.size = Node.sizeOfAll r.children + 1 := by
  rw [Root.size, Root.node, Node.size]

lemma Element.node_injective : Function.Injective Element.node := by
  rintro ⟨tag, properties, children⟩ ⟨tag', properties', children'⟩ h
  simpa [Element.node] using h

namespace TargetBlock

variable (t : TargetBlock)

/-! ## The elements of the result -/

/-- The wrapper that is put around an element, as it stands in the result. -/
def wrapped (e : Element) : Element :=
  t.wrapper (t.inner e) e.textContent

lemma elements_inner (e : Element) :
    (t.inner e).node.elements =
      t.inner e :: Node.elementsOfAll (t.onePassAll (t.isWrapper e) e.children) :=
  Node.elements_node _

lemma elements_wrapped (e : Element) :
    (t.wrapped e).node.elements = t.wrapped e :: (t.inner e).node.elements := by
  simp [wrapped, wrapper, Node.elementsOfAll]

mutual

/-- The elements after the one-pass rule: the new wrappers, and the elements from before
with their children rewritten. -/
lemma elements_onePass_perm (under : Bool) (n : Node) :
    (t.onePass under n).elements.Perm
      ((t.dueAt under n).map t.wrapped ++ n.elements.map t.inner) := by
  match n with
  | .root children =>
    rw [onePass, dueAt, Node.elements, Node.elements]
    exact elements_onePassAll_perm false children
  | .element tag properties children =>
    have ih := elements_onePassAll_perm (t.isWrapper ⟨tag, properties, children⟩) children
    -- The element stands in front of what is below it, and the wrappers there go before it.
    have hinner := (ih.cons (t.inner ⟨tag, properties, children⟩)).trans
      List.perm_middle.symm
    change (t.onePass under (Element.node ⟨tag, properties, children⟩)).elements.Perm
      ((t.dueAt under (Element.node ⟨tag, properties, children⟩)).map t.wrapped ++
        (Element.node ⟨tag, properties, children⟩).elements.map t.inner)
    cases hdue : t.isDue under ⟨tag, properties, children⟩ with
    | true =>
      rw [t.onePass_of_isDue hdue, t.dueAt_of_isDue hdue, Node.elements_node ⟨tag, _, _⟩]
      change (t.wrapped ⟨tag, properties, children⟩).node.elements.Perm _
      rw [elements_wrapped, elements_inner]
      exact hinner.cons _
    | false =>
      rw [t.onePass_of_not_isDue hdue, t.dueAt_of_not_isDue hdue, elements_inner,
        Node.elements_node]
      exact hinner
  | .text value => simp [onePass, dueAt, Node.elements]
  | .comment value => simp [onePass, dueAt, Node.elements]
  | .doctype => simp [onePass, dueAt, Node.elements]

/-- The same for several nodes. -/
lemma elements_onePassAll_perm (under : Bool) (nodes : List Node) :
    (Node.elementsOfAll (t.onePassAll under nodes)).Perm
      ((t.dueAmong under nodes).map t.wrapped ++ (Node.elementsOfAll nodes).map t.inner) := by
  match nodes with
  | [] => simp [onePassAll, dueAmong, Node.elementsOfAll]
  | n :: rest =>
    have happend := (elements_onePass_perm under n).append (elements_onePassAll_perm under rest)
    simp only [onePassAll, dueAmong, Node.elementsOfAll, List.map_append, List.append_assoc]
      at happend ⊢
    -- The wrappers in the rest change places with the elements of the first node.
    exact happend.trans ((List.perm_append_comm_assoc _ _ _).append_left _)

end

mutual

/-- The elements that are to be wrapped are target blocks of the document. -/
lemma dueAt_sublist (under : Bool) (n : Node) :
    (t.dueAt under n).Sublist (n.elements.filter t.isTarget) := by
  match n with
  | .root children =>
    rw [dueAt, Node.elements]
    exact dueAmong_sublist false children
  | .element tag properties children =>
    have ih := dueAmong_sublist (t.isWrapper ⟨tag, properties, children⟩) children
    rw [dueAt, Node.elements]
    cases hdue : t.isDue under ⟨tag, properties, children⟩ with
    | true =>
      rw [List.filter_cons_of_pos (t.eq_false_of_isDue hdue).2]
      simpa using ih
    | false =>
      have hbelow := ih.trans ((List.sublist_cons_self ⟨tag, properties, children⟩ _).filter _)
      simpa using hbelow
  | .text value => simp [dueAt]
  | .comment value => simp [dueAt]
  | .doctype => simp [dueAt]

/-- The same for several nodes. -/
lemma dueAmong_sublist (under : Bool) (nodes : List Node) :
    (t.dueAmong under nodes).Sublist ((Node.elementsOfAll nodes).filter t.isTarget) := by
  match nodes with
  | [] => simp [dueAmong]
  | n :: rest =>
    rw [dueAmong, Node.elementsOfAll, List.filter_append]
    exact (dueAt_sublist under n).append (dueAmong_sublist under rest)

end

lemma mem_elements_of_mem_dueAmong {under : Bool} {nodes : List Node} {e : Element}
    (h : e ∈ t.dueAmong under nodes) :
    e ∈ Node.elementsOfAll nodes ∧ t.isTarget e = true :=
  List.mem_filter.1 ((t.dueAmong_sublist under nodes).subset h)

/-! ## Nodes and texts of the result -/

mutual

/-- Every element that is wrapped brings one node more. -/
lemma size_onePass (under : Bool) (n : Node) :
    (t.onePass under n).size = n.size + (t.dueAt under n).length := by
  match n with
  | .root children =>
    have ih := size_onePassAll false children
    simp only [onePass, dueAt, Node.size]
    omega
  | .element tag properties children =>
    have ih := size_onePassAll (t.isWrapper ⟨tag, properties, children⟩) children
    cases hdue : t.isDue under ⟨tag, properties, children⟩ with
    | true =>
      simp only [onePass, dueAt, hdue, if_true, wrapper, Element.node, Node.size,
        Node.sizeOfAll, List.length_append, List.length_singleton]
      omega
    | false =>
      simp only [onePass, dueAt, hdue, Bool.false_eq_true, if_false, Element.node, Node.size,
        List.nil_append]
      omega
  | .text value => simp [onePass, dueAt]
  | .comment value => simp [onePass, dueAt]
  | .doctype => simp [onePass, dueAt]

/-- The same for several nodes. -/
lemma size_onePassAll (under : Bool) (nodes : List Node) :
    Node.sizeOfAll (t.onePassAll under nodes) =
      Node.sizeOfAll nodes + (t.dueAmong under nodes).length := by
  match nodes with
  | [] => simp [onePassAll, dueAmong]
  | n :: rest =>
    have hn := size_onePass under n
    have hrest := size_onePassAll under rest
    simp only [onePassAll, dueAmong, Node.sizeOfAll, List.length_append]
    omega

end

mutual

/-- A wrapper adds no text: its source is kept in a property. -/
lemma textContent_onePass (under : Bool) (n : Node) :
    (t.onePass under n).textContent = n.textContent := by
  match n with
  | .root children =>
    rw [onePass, Node.textContent, Node.textContent, textOfAll_onePassAll false children]
  | .element tag properties children =>
    have ih := textOfAll_onePassAll (t.isWrapper ⟨tag, properties, children⟩) children
    cases hdue : t.isDue under ⟨tag, properties, children⟩ with
    | true =>
      simp [onePass, hdue, wrapper, Element.node, Node.textContent, Node.textOfAll, ih]
    | false => simp [onePass, hdue, Element.node, Node.textContent, ih]
  | .text value => simp [onePass]
  | .comment value => simp [onePass]
  | .doctype => simp [onePass]

/-- The same for several nodes. -/
lemma textOfAll_onePassAll (under : Bool) (nodes : List Node) :
    Node.textOfAll (t.onePassAll under nodes) = Node.textOfAll nodes := by
  match nodes with
  | [] => rw [onePassAll]
  | n :: rest =>
    rw [onePassAll, Node.textOfAll, Node.textOfAll, textContent_onePass under n,
      textOfAll_onePassAll under rest]

end

lemma textContent_inner (e : Element) : (t.inner e).textContent = e.textContent :=
  t.textOfAll_onePassAll _ e.children

/-- The source that a wrapper records is the text below it in the result. -/
lemma textContent_wrapped (e : Element) : (t.wrapped e).textContent = e.textContent := by
  have hchild : (t.inner e).node.textContent = e.textContent := t.textContent_inner e
  rw [Element.textContent, wrapped, wrapper, Node.textOfAll, Node.textOfAll, hchild,
    String.append_empty]

/-! ## The form of new wrappers -/

/-- A document without wrappers. -/
def HasNoWrapper (r : Root) : Prop :=
  ∀ e ∈ r.elements, t.isWrapper e = false

instance (r : Root) : Decidable (t.HasNoWrapper r) :=
  inferInstanceAs (Decidable (∀ e ∈ r.elements, t.isWrapper e = false))

/-- A wrapper in the form in which it is made: it has the marker class and its own text as
source, and no other property, and it holds one block. -/
structure IsProperWrapper (w : Element) : Prop where
  /-- The properties are the class and the source. -/
  properties : w.properties.entries.Perm
    [(Properties.className, .list [t.markerClass]), (t.rawCodeAttribute, .text w.textContent)]
  /-- The only child is an element with the tag of a block. -/
  children : ∃ b : Element, w.children = [b.node] ∧ b.tag = t.blockTag

section Result

variable {t}

lemma entries_wrapperProperties (hattr : t.rawCodeAttribute ≠ Properties.className)
    (source : String) :
    (t.wrapperProperties source).entries.Perm
      [(Properties.className, .list [t.markerClass]), (t.rawCodeAttribute, .text source)] := by
  have hentries : (t.wrapperProperties source).entries =
      NameMap.insertIn t.rawCodeAttribute (.text source)
        [(Properties.className, .list [t.markerClass])] := rfl
  rw [hentries, NameMap.insertIn, if_neg hattr.symm, NameMap.insertIn]
  split
  · exact List.Perm.swap _ _ _
  · exact List.Perm.refl _

lemma isProperWrapper_wrapped (hattr : t.rawCodeAttribute ≠ Properties.className)
    {e : Element} (h : t.isTarget e = true) : t.IsProperWrapper (t.wrapped e) where
  properties := by
    rw [textContent_wrapped]
    exact entries_wrapperProperties hattr e.textContent
  children := ⟨t.inner e, rfl, show e.tag = t.blockTag from t.tag_of_isTarget h⟩

lemma isWrapper_wrapped (hattr : t.rawCodeAttribute ≠ Properties.className) (e : Element) :
    t.isWrapper (t.wrapped e) = true :=
  isWrapper_wrapper hattr _ _

/-- The elements of a wrapped document. -/
lemma elements_wrap_perm (hattr : t.rawCodeAttribute ≠ Properties.className) (r : Root) :
    (t.wrap r).1.elements.Perm
      ((t.dueAmong false r.children).map t.wrapped ++ r.elements.map t.inner) := by
  rw [wrap_eq hattr]
  exact t.elements_onePassAll_perm false r.children

/-- Every block that is wrapped brings one wrapper more. -/
lemma countP_isWrapper_wrap (hattr : t.rawCodeAttribute ≠ Properties.className) (r : Root) :
    (t.wrap r).1.elements.countP t.isWrapper =
      r.elements.countP t.isWrapper + (t.wrap r).2 := by
  have hnew : ((t.dueAmong false r.children).map t.wrapped).countP t.isWrapper =
      (t.wrap r).2 := by
    rw [wrap_eq hattr, List.countP_eq_length.2, List.length_map]
    intro w hw
    obtain ⟨e, -, rfl⟩ := List.mem_map.1 hw
    exact isWrapper_wrapped hattr e
  have hold : (r.elements.map t.inner).countP t.isWrapper = r.elements.countP t.isWrapper := by
    rw [List.countP_map]
    exact List.countP_congr fun e _ => by rw [Function.comp_apply, isWrapper_inner]
  rw [(elements_wrap_perm hattr r).countP_eq, List.countP_append, hnew, hold, Nat.add_comm]

/-- In a document that had no wrapper before, the wrappers are those that were put in. -/
lemma exists_due_of_isWrapper (hattr : t.rawCodeAttribute ≠ Properties.className) {r : Root}
    (hr : t.HasNoWrapper r) {w : Element} (hw : w ∈ (t.wrap r).1.elements)
    (h : t.isWrapper w = true) : ∃ e ∈ t.dueAmong false r.children, w = t.wrapped e := by
  have hmem := (elements_wrap_perm hattr r).subset hw
  rcases List.mem_append.1 hmem with hnew | hold
  · obtain ⟨e, he, rfl⟩ := List.mem_map.1 hnew
    exact ⟨e, he, rfl⟩
  · -- An element keeps its shape when its children are rewritten, and it was no wrapper.
    obtain ⟨e, he, rfl⟩ := List.mem_map.1 hold
    rw [isWrapper_inner, hr e he] at h
    exact absurd h Bool.false_ne_true

/-- The child of a new wrapper is the block, and so no wrapper. -/
lemma not_mem_children_of_isWrapper (hattr : t.rawCodeAttribute ≠ Properties.className)
    {r : Root} (hr : t.HasNoWrapper r) {w p : Element} (hw : t.isWrapper w = true)
    (hp : p ∈ (t.wrap r).1.elements) (h : t.isWrapper p = true) : w.node ∉ p.children := by
  obtain ⟨e, he, rfl⟩ := exists_due_of_isWrapper hattr hr hp h
  intro hchild
  have hnode : w.node = (t.inner e).node := List.mem_singleton.1 hchild
  rw [Element.node_injective hnode, isWrapper_inner,
    hr e (t.mem_elements_of_mem_dueAmong he).1] at hw
  exact Bool.false_ne_true hw

end Result

/-! ## The main result -/

/-- **Wrapping conserves.**  If the source of a block does not take the place of the classes
of its wrapper, a wrapped document has as many more wrappers and as many more nodes as blocks
were wrapped, and the same text.  If it had no wrapper before, then every wrapper has the
class and the source as its only properties and one block as its only child, its source is
all the text below it, and it does not stand directly below a wrapper. -/
theorem wrap_conserves (hattr : t.rawCodeAttribute ≠ Properties.className) (r : Root) :
    (t.wrap r).1.elements.countP t.isWrapper =
        r.elements.countP t.isWrapper + (t.wrap r).2 ∧
      (t.wrap r).1.size = r.size + (t.wrap r).2 ∧
      (t.wrap r).1.textContent = r.textContent ∧
      (t.HasNoWrapper r → ∀ w ∈ (t.wrap r).1.elements, t.isWrapper w = true →
        t.IsProperWrapper w ∧
          ∀ p ∈ (t.wrap r).1.elements, t.isWrapper p = true → w.node ∉ p.children) := by
  refine ⟨countP_isWrapper_wrap hattr r, ?_, ?_, ?_⟩
  · rw [wrap_eq hattr, Root.size_eq, Root.size_eq, size_onePassAll, Nat.add_right_comm]
  · rw [wrap_eq hattr]
    exact t.textOfAll_onePassAll false r.children
  · intro hr w hw hwrapper
    obtain ⟨e, he, rfl⟩ := exists_due_of_isWrapper hattr hr hw hwrapper
    have htarget := (t.mem_elements_of_mem_dueAmong he).2
    exact ⟨isProperWrapper_wrapped hattr htarget,
      fun p hp => not_mem_children_of_isWrapper hattr hr hwrapper hp⟩

/-- Two wrappers come to seven nodes without one, and each of them is of the usual form. -/
theorem wrap_conserves_nestedBlocks :
    standard.rawCodeAttribute ≠ Properties.className ∧ standard.HasNoWrapper nestedBlocks ∧
      (standard.wrap nestedBlocks).1.elements.countP standard.isWrapper = 2 ∧
      (standard.wrap nestedBlocks).1.size = 9 ∧
      (standard.wrap nestedBlocks).1.textContent = "AB" ∧
      ∀ w ∈ (standard.wrap nestedBlocks).1.elements, standard.isWrapper w = true →
        standard.IsProperWrapper w := by
  have hattr : standard.rawCodeAttribute ≠ Properties.className := by decide
  have hfree : standard.HasNoWrapper nestedBlocks := by decide
  obtain ⟨hcount, hsize, htext, hform⟩ := wrap_conserves standard hattr nestedBlocks
  exact ⟨hattr, hfree, hcount.trans rfl, hsize.trans rfl, htext.trans rfl,
    fun w hw hwrapper => (hform hfree w hw hwrapper).1⟩

end TargetBlock

end FencedCode
