import FencedCode.Proofs.Conservation
import Mathlib.Data.Set.Function

/-!
# Taking the wrappers away

`unwrap` puts the only child of every wrapper in the place of the wrapper.  In a document
that had no wrapper, the wrappers after wrapping are those that were put in, and nothing
else has come to look like one; taking them away therefore gives the document back.  This is
the main result, `unwrap_wrap`.
-/

namespace FencedCode

namespace TargetBlock

variable (t : TargetBlock)

/-! ## Unwrapping -/

mutual

/-- What is left of a node when every wrapper at and below it gives way to its only
child. -/
def unwrapAt : Node → Node
  | .root children => .root (unwrapAll children)
  | .element tag properties children =>
    match t.isWrapper ⟨tag, properties, children⟩, unwrapAll children with
    | true, [child] => child
    | _, inner => .element tag properties inner
  | n => n

/-- What is left of several nodes, each in its place. -/
def unwrapAll : List Node → List Node
  | [] => []
  | n :: rest => unwrapAt n :: unwrapAll rest

end

/-- The document in which every wrapper gives way to its only child. -/
def unwrap (r : Root) : Root :=
  ⟨t.unwrapAll r.children⟩

variable {t}

lemma unwrapAt_of_isWrapper {e : Element} {child : Node} (h : t.isWrapper e = true)
    (hchild : e.children = [child]) : t.unwrapAt e.node = t.unwrapAt child := by
  obtain ⟨tag, properties, children⟩ := e
  subst hchild
  simp only [Element.node, unwrapAt, h, unwrapAll]

lemma unwrapAt_of_not_isWrapper {e : Element} (h : t.isWrapper e = false) :
    t.unwrapAt e.node = .element e.tag e.properties (t.unwrapAll e.children) := by
  simp only [Element.node, unwrapAt, h]

/-- A new wrapper gives way to the block in it. -/
lemma unwrapAt_wrapped (hattr : t.rawCodeAttribute ≠ Properties.className) (e : Element) :
    t.unwrapAt (t.wrapped e).node = t.unwrapAt (t.inner e).node :=
  unwrapAt_of_isWrapper (isWrapper_wrapped hattr e) rfl

/-! ## Unwrapping what was wrapped -/

mutual

/-- Wrapping a node without wrappers is undone by unwrapping. -/
lemma unwrapAt_onePass (hattr : t.rawCodeAttribute ≠ Properties.className) (under : Bool)
    (n : Node) (h : ∀ e ∈ n.elements, t.isWrapper e = false) :
    t.unwrapAt (t.onePass under n) = n := by
  match n with
  | .root children =>
    rw [Node.elements] at h
    rw [onePass, unwrapAt, unwrapAll_onePassAll hattr false children h]
  | .element tag properties children =>
    rw [Node.elements, List.forall_mem_cons] at h
    obtain ⟨hself, hbelow⟩ := h
    have ih := unwrapAll_onePassAll hattr (t.isWrapper ⟨tag, properties, children⟩) children
      hbelow
    -- The element with its children rewritten is no wrapper either, and so it stays.
    have hinner : t.unwrapAt (t.inner ⟨tag, properties, children⟩).node =
        .element tag properties children := by
      rw [unwrapAt_of_not_isWrapper ((t.isWrapper_inner _).trans hself)]
      exact congrArg (Node.element tag properties) ih
    change t.unwrapAt (t.onePass under (Element.node ⟨tag, properties, children⟩)) = _
    cases hdue : t.isDue under ⟨tag, properties, children⟩ with
    | true =>
      rw [t.onePass_of_isDue hdue]
      exact (unwrapAt_wrapped hattr _).trans hinner
    | false =>
      rw [t.onePass_of_not_isDue hdue]
      exact hinner
  | .text value => rw [onePass, unwrapAt] <;> simp
  | .comment value => rw [onePass, unwrapAt] <;> simp
  | .doctype => rw [onePass, unwrapAt] <;> simp

/-- The same for several nodes. -/
lemma unwrapAll_onePassAll (hattr : t.rawCodeAttribute ≠ Properties.className)
    (under : Bool) (nodes : List Node)
    (h : ∀ e ∈ Node.elementsOfAll nodes, t.isWrapper e = false) :
    t.unwrapAll (t.onePassAll under nodes) = nodes := by
  match nodes with
  | [] => rw [onePassAll, unwrapAll]
  | n :: rest =>
    rw [Node.elementsOfAll, List.forall_mem_append] at h
    rw [onePassAll, unwrapAll, unwrapAt_onePass hattr under n h.1,
      unwrapAll_onePassAll hattr under rest h.2]

end

/-- An element that is no wrapper and has none below it is all there after unwrapping. -/
lemma unwrapAt_inner (hattr : t.rawCodeAttribute ≠ Properties.className) {e : Element}
    (h : ∀ f ∈ e.node.elements, t.isWrapper f = false) : t.unwrapAt (t.inner e).node = e.node := by
  rw [Node.elements_node, List.forall_mem_cons] at h
  rw [unwrapAt_of_not_isWrapper ((t.isWrapper_inner e).trans h.1)]
  exact congrArg (Node.element e.tag e.properties)
    (unwrapAll_onePassAll hattr (t.isWrapper e) e.children h.2)

lemma unwrap_wrap_eq (hattr : t.rawCodeAttribute ≠ Properties.className) {r : Root}
    (hr : t.HasNoWrapper r) : t.unwrap (t.wrap r).1 = r := by
  rw [wrap_eq hattr, unwrap, unwrapAll_onePassAll hattr false r.children hr]

/-! ## The main result -/

/-- **Wrapping loses nothing.**  If the source of a block does not take the place of the
classes of its wrapper, unwrapping undoes wrapping on every document that had no wrapper.  So
no two such documents come to the same one by wrapping, and every block that is wrapped is
found in full below a wrapper of the result. -/
theorem unwrap_wrap (t : TargetBlock) (hattr : t.rawCodeAttribute ≠ Properties.className) :
    (∀ r : Root, t.HasNoWrapper r → t.unwrap (t.wrap r).1 = r) ∧
      Set.InjOn (fun r : Root => (t.wrap r).1) {r | t.HasNoWrapper r} ∧
      ∀ r : Root, t.HasNoWrapper r → ∀ e ∈ t.dueAmong false r.children,
        ∃ w ∈ (t.wrap r).1.elements, t.isWrapper w = true ∧
          ∃ block, w.children = [block] ∧ t.unwrapAt block = e.node := by
  refine ⟨fun r hr => unwrap_wrap_eq hattr hr, fun r hr s hs hrs => ?_, fun r hr e he => ?_⟩
  · calc r = t.unwrap (t.wrap r).1 := (unwrap_wrap_eq hattr hr).symm
      _ = t.unwrap (t.wrap s).1 := congrArg t.unwrap hrs
      _ = s := unwrap_wrap_eq hattr hs
  · have hmem : e ∈ r.elements := (t.mem_elements_of_mem_dueAmong he).1
    refine ⟨t.wrapped e, ?_, isWrapper_wrapped hattr e, (t.inner e).node, rfl, ?_⟩
    · exact (elements_wrap_perm hattr r).symm.subset
        (List.mem_append_left _ (List.mem_map_of_mem he))
    · exact unwrapAt_inner hattr fun f hf => hr f (Node.mem_elementsOfAll_trans hmem hf)

/-- Two blocks are wrapped, one inside the other, and taking the wrappers away gives them
back. -/
theorem unwrap_wrap_nestedBlocks :
    standard.rawCodeAttribute ≠ Properties.className ∧ standard.HasNoWrapper nestedBlocks ∧
      (standard.wrap nestedBlocks).2 = 2 ∧
      standard.unwrap (standard.wrap nestedBlocks).1 = nestedBlocks ∧
      ∃ w ∈ (standard.wrap nestedBlocks).1.elements, standard.isWrapper w = true ∧
        ∃ block, w.children = [block] ∧
          standard.unwrapAt block = (standard.block {} [.text "B"]).node := by
  have hattr : standard.rawCodeAttribute ≠ Properties.className := by decide
  have hfree : standard.HasNoWrapper nestedBlocks := by decide
  have hdue : standard.block {} [.text "B"] ∈ standard.dueAmong false nestedBlocks.children :=
    List.mem_cons_of_mem _ List.mem_cons_self
  obtain ⟨hback, -, hblocks⟩ := unwrap_wrap standard hattr
  exact ⟨hattr, hfree, rfl, hback nestedBlocks hfree, hblocks nestedBlocks hfree _ hdue⟩

end TargetBlock

end FencedCode
