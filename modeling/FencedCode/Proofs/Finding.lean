import FencedCode.Proofs.Elements
import FencedCode.Proofs.Wrapping

/-!
# Finding what wrapping wraps

The walk that only looks decides about an element as it stands in the document, the walk
that wraps about wrappers that it has just made.  Both come down to the one-pass rule: the
blocks that are found are the elements that the rule wraps, `sourcesAmong_eq`, and the
wrappers that it puts in carry their sources, `map_source?_insertedAmong`.  The main result
is `find_agrees_with_wrap`.
-/

namespace FencedCode

/-- The block with so many blocks more in front of it. -/
def FoundBlock.shift (k : Nat) (b : FoundBlock) : FoundBlock :=
  ⟨b.index + k, b.source⟩

namespace TargetBlock

variable (t : TargetBlock)

/-! ## What is found -/

mutual

/-- The sources that are found are the texts of the elements that are to be wrapped. -/
lemma sourcesAt_eq (under : Bool) (n : Node) :
    t.sourcesAt under n = (t.dueAt under n).map Element.textContent := by
  match n with
  | .root children => simp [sourcesAt, dueAt, sourcesAmong_eq false children]
  | .element tag properties children =>
    have ih := sourcesAmong_eq (t.isWrapper ⟨tag, properties, children⟩) children
    cases hdue : t.isDue under ⟨tag, properties, children⟩ with
    | true =>
      have htarget := hdue
      rw [isDue] at htarget
      simp [sourcesAt, dueAt, ih, hdue, htarget, Element.textContent]
    | false =>
      have htarget := hdue
      rw [isDue] at htarget
      simp [sourcesAt, dueAt, ih, hdue, htarget]
  | .text value => simp [sourcesAt, dueAt]
  | .comment value => simp [sourcesAt, dueAt]
  | .doctype => simp [sourcesAt, dueAt]

/-- The same for several nodes. -/
lemma sourcesAmong_eq (under : Bool) (nodes : List Node) :
    t.sourcesAmong under nodes = (t.dueAmong under nodes).map Element.textContent := by
  match nodes with
  | [] => simp [sourcesAmong, dueAmong]
  | n :: rest =>
    simp [sourcesAmong, dueAmong, sourcesAt_eq under n, sourcesAmong_eq under rest]

end

lemma find_eq (r : Root) :
    t.find r = ((t.dueAmong false r.children).map Element.textContent).zipIdx.map
      fun (source, index) => ⟨index, source⟩ := by
  rw [find, sourcesAmong_eq]

lemma length_find (r : Root) : (t.find r).length = (t.dueAmong false r.children).length := by
  simp [find_eq]

lemma find_eq_nil_iff (r : Root) : t.find r = [] ↔ t.dueAmong false r.children = [] := by
  simp [find_eq]

lemma map_index_find (r : Root) :
    (t.find r).map FoundBlock.index = List.range (t.find r).length := by
  have hindex : (FoundBlock.index ∘ fun p : String × Nat => (⟨p.2, p.1⟩ : FoundBlock)) =
      Prod.snd := rfl
  rw [length_find, find_eq, List.map_map, hindex, List.zipIdx_map_snd, List.length_map,
    List.range_eq_range']

lemma map_source_find (r : Root) :
    (t.find r).map FoundBlock.source =
      (t.dueAmong false r.children).map Element.textContent := by
  have hsource : (FoundBlock.source ∘ fun p : String × Nat => (⟨p.2, p.1⟩ : FoundBlock)) =
      Prod.fst := rfl
  rw [find_eq, List.map_map, hsource, List.zipIdx_map_fst]

/-- The blocks behind some nodes are found as if those nodes were not there, and counted on
from the blocks in front of them. -/
lemma find_append (xs ys : List Node) :
    t.find ⟨xs ++ ys⟩ = t.find ⟨xs⟩ ++ (t.find ⟨ys⟩).map (.shift (t.find ⟨xs⟩).length) := by
  rw [length_find, find_eq, find_eq, find_eq, dueAmong_append, List.map_append,
    List.zipIdx_append, List.map_append, List.map_map, List.length_map]
  congr 1
  rw [Nat.zero_add, List.zipIdx_eq_map_add, List.map_map]
  refine List.map_congr_left fun p _ => ?_
  simp [FoundBlock.shift, Nat.add_comm]

/-! ## The wrappers that are put in -/

mutual

/-- The wrappers that the one-pass rule puts in at and below a node, in document order, as
they stand in the result. -/
def insertedAt (under : Bool) : Node → List Element
  | .root children => insertedAmong false children
  | .element tag properties children =>
    let e : Element := ⟨tag, properties, children⟩
    let inner : Element := ⟨tag, properties, t.onePassAll (t.isWrapper e) children⟩
    (if t.isDue under e then [t.wrapper inner e.textContent] else []) ++
      insertedAmong (t.isWrapper e) children
  | _ => []

/-- The wrappers that the one-pass rule puts in at and below several nodes. -/
def insertedAmong (under : Bool) : List Node → List Element
  | [] => []
  | n :: rest => insertedAt under n ++ insertedAmong under rest

end

/-- The source that a wrapper carries. -/
def source? (e : Element) : Option String :=
  (e.properties.get? t.rawCodeAttribute).bind PropertyValue.asText?

@[simp] lemma source?_wrapper (e : Element) (source : String) :
    t.source? (t.wrapper e source) = some source := by
  rw [source?, wrapper, get?_rawCodeAttribute_wrapperProperties]
  rfl

mutual

/-- The wrappers carry the texts of the elements that they are put around. -/
lemma map_source?_insertedAt (under : Bool) (n : Node) :
    (t.insertedAt under n).map t.source? =
      (t.dueAt under n).map fun e => some e.textContent := by
  match n with
  | .root children => simp [insertedAt, dueAt, map_source?_insertedAmong false children]
  | .element tag properties children =>
    have ih := map_source?_insertedAmong (t.isWrapper ⟨tag, properties, children⟩) children
    cases hdue : t.isDue under ⟨tag, properties, children⟩ with
    | true => simp [insertedAt, dueAt, hdue, ih]
    | false => simp [insertedAt, dueAt, hdue, ih]
  | .text value => simp [insertedAt, dueAt]
  | .comment value => simp [insertedAt, dueAt]
  | .doctype => simp [insertedAt, dueAt]

/-- The same for several nodes. -/
lemma map_source?_insertedAmong (under : Bool) (nodes : List Node) :
    (t.insertedAmong under nodes).map t.source? =
      (t.dueAmong under nodes).map fun e => some e.textContent := by
  match nodes with
  | [] => simp [insertedAmong, dueAmong]
  | n :: rest =>
    simp [insertedAmong, dueAmong, map_source?_insertedAt under n,
      map_source?_insertedAmong under rest]

end

mutual

/-- The wrappers stand in the result, in this order. -/
lemma insertedAt_sublist (under : Bool) (n : Node) :
    (t.insertedAt under n).Sublist (t.onePass under n).elements := by
  match n with
  | .root children =>
    rw [insertedAt, onePass, Node.elements]
    exact insertedAmong_sublist false children
  | .element tag properties children =>
    have ih := insertedAmong_sublist (t.isWrapper ⟨tag, properties, children⟩) children
    cases hdue : t.isDue under ⟨tag, properties, children⟩ with
    | true =>
      have hbelow := (ih.cons ⟨tag, properties,
        t.onePassAll (t.isWrapper ⟨tag, properties, children⟩) children⟩)
      simpa [insertedAt, onePass, hdue, wrapper, Node.elementsOfAll] using hbelow
    | false => simpa [insertedAt, onePass, hdue] using ih.cons _
  | .text value => simp [insertedAt]
  | .comment value => simp [insertedAt]
  | .doctype => simp [insertedAt]

/-- The same for several nodes. -/
lemma insertedAmong_sublist (under : Bool) (nodes : List Node) :
    (t.insertedAmong under nodes).Sublist
      (Node.elementsOfAll (t.onePassAll under nodes)) := by
  match nodes with
  | [] => simp [insertedAmong]
  | n :: rest =>
    rw [insertedAmong, onePassAll, Node.elementsOfAll]
    exact (insertedAt_sublist under n).append (insertedAmong_sublist under rest)

end

/-! ## Changes -/

mutual

/-- Every element that is wrapped brings one element more. -/
lemma length_elements_onePass (under : Bool) (n : Node) :
    (t.onePass under n).elements.length = n.elements.length + (t.dueAt under n).length := by
  match n with
  | .root children =>
    rw [onePass, Node.elements, Node.elements, dueAt]
    exact length_elements_onePassAll false children
  | .element tag properties children =>
    have ih := length_elements_onePassAll (t.isWrapper ⟨tag, properties, children⟩) children
    cases hdue : t.isDue under ⟨tag, properties, children⟩ with
    | true =>
      simp only [onePass, dueAt, hdue, if_true, wrapper, Node.elements_node, Node.elements,
        Node.elementsOfAll, List.length_cons, List.append_nil, List.singleton_append]
      omega
    | false =>
      simp only [onePass, dueAt, hdue, Bool.false_eq_true, if_false, Node.elements_node,
        Node.elements, List.length_cons, List.nil_append]
      omega
  | .text value => simp [onePass, dueAt]
  | .comment value => simp [onePass, dueAt]
  | .doctype => simp [onePass, dueAt]

/-- The same for several nodes. -/
lemma length_elements_onePassAll (under : Bool) (nodes : List Node) :
    (Node.elementsOfAll (t.onePassAll under nodes)).length =
      (Node.elementsOfAll nodes).length + (t.dueAmong under nodes).length := by
  match nodes with
  | [] => simp [onePassAll, dueAmong]
  | n :: rest =>
    have hn := length_elements_onePass under n
    have hrest := length_elements_onePassAll under rest
    simp only [onePassAll, dueAmong, Node.elementsOfAll, List.length_append]
    omega

end

mutual

/-- A node without elements that are to be wrapped stays as it is. -/
lemma onePass_eq_self (under : Bool) (n : Node) (h : t.dueAt under n = []) :
    t.onePass under n = n := by
  match n with
  | .root children =>
    rw [dueAt] at h
    rw [onePass, onePassAll_eq_self false children h]
  | .element tag properties children =>
    rw [dueAt, List.append_eq_nil_iff] at h
    obtain ⟨hhere, hbelow⟩ := h
    have hdue : t.isDue under ⟨tag, properties, children⟩ = false := by simpa using hhere
    have ih := onePassAll_eq_self (t.isWrapper ⟨tag, properties, children⟩) children hbelow
    simp [onePass, hdue, ih, Element.node]
  | .text value => rw [onePass] <;> simp
  | .comment value => rw [onePass] <;> simp
  | .doctype => rw [onePass] <;> simp

/-- The same for several nodes. -/
lemma onePassAll_eq_self (under : Bool) (nodes : List Node)
    (h : t.dueAmong under nodes = []) : t.onePassAll under nodes = nodes := by
  match nodes with
  | [] => rw [onePassAll]
  | n :: rest =>
    rw [dueAmong, List.append_eq_nil_iff] at h
    rw [onePassAll, onePass_eq_self under n h.1, onePassAll_eq_self under rest h.2]

end

/-- The rule changes some nodes exactly if there is an element to be wrapped. -/
lemma onePassAll_eq_self_iff (under : Bool) (nodes : List Node) :
    t.onePassAll under nodes = nodes ↔ t.dueAmong under nodes = [] := by
  constructor
  · -- Were an element wrapped, the result would have an element more.
    intro h
    have hlength := t.length_elements_onePassAll under nodes
    rw [h] at hlength
    exact List.eq_nil_of_length_eq_zero (by omega)
  · exact t.onePassAll_eq_self under nodes

/-! ## The main result -/

/-- **Finding and wrapping agree.**  If the source of a block does not take the place of the
classes of its wrapper, as many blocks are found as are wrapped, they are counted from zero,
and their sources are those of the wrappers that are put in, which stand in the result in
the same order and are all that is new there.  Nothing is found exactly if wrapping changes
nothing, and the blocks behind some nodes are found independently of those nodes. -/
theorem find_agrees_with_wrap (hattr : t.rawCodeAttribute ≠ Properties.className)
    (r : Root) :
    (t.find r).length = (t.wrap r).2 ∧
      (t.find r).map FoundBlock.index = List.range (t.wrap r).2 ∧
      (t.find r).map (fun b => some b.source) =
        (t.insertedAmong false r.children).map t.source? ∧
      (t.insertedAmong false r.children).Sublist (t.wrap r).1.elements ∧
      (t.wrap r).1.elements.length =
        r.elements.length + (t.insertedAmong false r.children).length ∧
      (t.find r = [] ↔ (t.wrap r).1 = r) ∧
      ∀ xs ys, r.children = xs ++ ys →
        t.find r = t.find ⟨xs⟩ ++ (t.find ⟨ys⟩).map (.shift (t.find ⟨xs⟩).length) := by
  rw [wrap_eq hattr r]
  -- Both sides speak of the elements that are due: the blocks found are these elements, and
  -- the wrappers put in carry their texts.
  have hsource := t.map_source?_insertedAmong false r.children
  have hinserted : (t.insertedAmong false r.children).length =
      (t.dueAmong false r.children).length := by
    simpa using congrArg List.length hsource
  refine ⟨t.length_find r, ?_, ?_, t.insertedAmong_sublist false r.children, ?_, ?_, ?_⟩
  · rw [map_index_find, length_find]
  · have hfound := congrArg (List.map some) (t.map_source_find r)
    rw [List.map_map, List.map_map] at hfound
    exact hfound.trans hsource.symm
  · rw [hinserted]
    exact t.length_elements_onePassAll false r.children
  · rw [find_eq_nil_iff, ← onePassAll_eq_self_iff]
    exact ⟨fun h => congrArg Root.mk h, congrArg Root.children⟩
  · intro xs ys h
    rw [← find_append, ← h]

/-- The outer block is found before the one inside it, as they are wrapped. -/
theorem find_nestedBlocks :
    standard.rawCodeAttribute ≠ Properties.className ∧
      (standard.find nestedBlocks).map FoundBlock.index = [0, 1] ∧
      (standard.find nestedBlocks).map (fun b => some b.source) =
        [some "AB", some "B"] := by
  have hattr : standard.rawCodeAttribute ≠ Properties.className := by decide
  obtain ⟨-, hindex, hsource, -⟩ := find_agrees_with_wrap standard hattr nestedBlocks
  exact ⟨hattr, hindex.trans rfl, hsource.trans rfl⟩

end TargetBlock

end FencedCode
