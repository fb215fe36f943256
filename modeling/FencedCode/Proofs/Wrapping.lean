import FencedCode.Block.Wrapper
import FencedCode.Proofs.Target

/-!
# Wrapping in one pass

The walk that wraps target blocks puts a wrapper in the place of a block, looks at the
wrapper, recognises it and goes on below it, where it meets the block a second time and
leaves it alone.  `onePass` says what becomes of a document without any of that: every
element is looked at once, as it stands in the original document, and is wrapped if it is a
target block and its parent is no wrapper.  The walk ends and does exactly this if it
recognises every wrapper that it puts in, `wrap?_of_recognised`.  The main result,
`wrap_eq_onePass`, is that this is so whenever the source of a block does not take the place
of the classes of its wrapper.
-/

namespace FencedCode

namespace TargetBlock

variable (t : TargetBlock)

/-! ## The one-pass rule -/

/-- Whether an element is to be wrapped: it is a target block, and its parent is no
wrapper. -/
def isDue (under : Bool) (e : Element) : Bool :=
  !under && t.isTarget e

mutual

/-- What becomes of a node; `under` says whether its parent is a wrapper. -/
def onePass (under : Bool) : Node → Node
  | .root children => .root (onePassAll false children)
  | .element tag properties children =>
    let e : Element := ⟨tag, properties, children⟩
    let inner : Element := ⟨tag, properties, onePassAll (t.isWrapper e) children⟩
    if t.isDue under e then (t.wrapper inner e.textContent).node else inner.node
  | n => n

/-- What becomes of several nodes, each in its place. -/
def onePassAll (under : Bool) : List Node → List Node
  | [] => []
  | n :: rest => onePass under n :: onePassAll under rest

end

mutual

/-- The elements at and below a node that are to be wrapped, in document order. -/
def dueAt (under : Bool) : Node → List Element
  | .root children => dueAmong false children
  | .element tag properties children =>
    let e : Element := ⟨tag, properties, children⟩
    (if t.isDue under e then [e] else []) ++ dueAmong (t.isWrapper e) children
  | _ => []

/-- The elements at and below several nodes that are to be wrapped, in document order. -/
def dueAmong (under : Bool) : List Node → List Element
  | [] => []
  | n :: rest => dueAt under n ++ dueAmong under rest

end

/-! ## What the rule leaves alone -/

lemma onePassAll_eq_map (under : Bool) (nodes : List Node) :
    t.onePassAll under nodes = nodes.map (t.onePass under) := by
  induction nodes with
  | nil => simp [onePassAll]
  | cons n rest ih => simp [onePassAll, ih]

@[simp] lemma length_onePassAll (under : Bool) (nodes : List Node) :
    (t.onePassAll under nodes).length = nodes.length := by
  simp [onePassAll_eq_map]

lemma dueAmong_append (under : Bool) (xs ys : List Node) :
    t.dueAmong under (xs ++ ys) = t.dueAmong under xs ++ t.dueAmong under ys := by
  induction xs with
  | nil => simp [dueAmong]
  | cons n rest ih => simp [dueAmong, ih]

/-! ## The rule for an element -/

/-- The element with its children as the rule leaves them. -/
def inner (e : Element) : Element :=
  ⟨e.tag, e.properties, t.onePassAll (t.isWrapper e) e.children⟩

/-- What is done below an element does not change whether it is a wrapper. -/
@[simp] lemma isWrapper_inner (e : Element) : t.isWrapper (t.inner e) = t.isWrapper e :=
  t.isWrapper_congr (t.length_onePassAll _ e.children)

lemma onePass_of_isDue {under : Bool} {e : Element} (h : t.isDue under e = true) :
    t.onePass under e.node = (t.wrapper (t.inner e) e.textContent).node := by
  simp [Element.node, onePass, h, inner]

lemma onePass_of_not_isDue {under : Bool} {e : Element} (h : t.isDue under e = false) :
    t.onePass under e.node = (t.inner e).node := by
  simp [Element.node, onePass, h, inner]

lemma dueAt_of_isDue {under : Bool} {e : Element} (h : t.isDue under e = true) :
    t.dueAt under e.node = e :: t.dueAmong (t.isWrapper e) e.children := by
  simp [Element.node, dueAt, h]

lemma dueAt_of_not_isDue {under : Bool} {e : Element} (h : t.isDue under e = false) :
    t.dueAt under e.node = t.dueAmong (t.isWrapper e) e.children := by
  simp [Element.node, dueAt, h]

/-- Directly below a wrapper nothing is wrapped. -/
@[simp] lemma isDue_true (e : Element) : t.isDue true e = false := by
  simp [isDue]

@[simp] lemma isDue_false (e : Element) : t.isDue false e = t.isTarget e := by
  simp [isDue]

lemma eq_false_of_isDue {under : Bool} {e : Element} (h : t.isDue under e = true) :
    under = false ∧ t.isTarget e = true := by
  simpa [isDue] using h

/-! ## What is still recognised -/

section Recognition

variable {t} {u : TargetBlock}

/-- Wrapping makes or unmakes no code element of blocks whose code elements have another tag
than the blocks and the wrappers. -/
lemma isCode_onePass (hblock : t.blockTag ≠ u.codeTag) (hwrapper : t.wrapperTag ≠ u.codeTag)
    (under : Bool) (n : Node) : u.isCode (t.onePass under n) = u.isCode n := by
  match n with
  | .root children => simp [onePass, isCode]
  | .text value => simp [onePass]
  | .comment value => simp [onePass]
  | .doctype => simp [onePass]
  | .element tag properties children =>
    change u.isCode (t.onePass under (Element.node ⟨tag, properties, children⟩)) = _
    cases hdue : t.isDue under ⟨tag, properties, children⟩ with
    | true =>
      have htag : tag = t.blockTag := t.tag_of_isTarget (t.eq_false_of_isDue hdue).2
      rw [t.onePass_of_isDue hdue]
      simp [isCode, wrapper, Element.node, hwrapper, htag, hblock]
    | false =>
      rw [t.onePass_of_not_isDue hdue]
      rfl

/-- Whether an element is a block of that kind does not change either when what is below it
is wrapped. -/
lemma isTarget_inner (hblock : t.blockTag ≠ u.codeTag) (hwrapper : t.wrapperTag ≠ u.codeTag)
    (e : Element) : u.isTarget (t.inner e) = u.isTarget e := by
  rw [isTarget_eq, isTarget_eq, inner, onePassAll_eq_map, List.head?_map]
  cases e.children.head? with
  | none => rfl
  | some n => simp [isCode_onePass hblock hwrapper]

end Recognition

/-! ## The walk -/

/-- Whether the wrapper that is put around an element is recognised as one. -/
def isRecognised (e : Element) : Bool :=
  t.isWrapper (t.wrapper e e.textContent)

section Walk

variable {t}

/-- A source that does not take the place of the classes leaves a wrapper recognisable. -/
lemma isRecognised_of_ne (hattr : t.rawCodeAttribute ≠ Properties.className) (e : Element) :
    t.isRecognised e = true :=
  isWrapper_wrapper hattr e e.textContent

/-- An element that is not to be wrapped costs the walk one step. -/
lemma wrapAt_of_not_isDue {under : Bool} {tag : String} {properties : Properties}
    {children : List Node} (h : t.isDue under ⟨tag, properties, children⟩ = false)
    (bound : Nat) :
    t.wrapAt (bound + 1) under (.element tag properties children) =
      (wrapAmong (t.wrapAt bound (t.isWrapper ⟨tag, properties, children⟩)) children).map
        fun (inner, count) => (.element tag properties inner, count) := by
  have hreplaced : t.replaced under ⟨tag, properties, children⟩ =
      (⟨tag, properties, children⟩, 0) := by
    rw [isDue] at h
    simp [replaced, h]
  rw [wrapAt, hreplaced]
  dsimp only
  cases wrapAmong (t.wrapAt bound (t.isWrapper ⟨tag, properties, children⟩)) children with
  | none => rfl
  | some result => simp

/-- An element that is to be wrapped costs the walk two steps, one for its wrapper and one
for itself: below the wrapper, if it is recognised, the element is met again and left
alone. -/
lemma wrapAt_of_isDue {under : Bool} {tag : String} {properties : Properties}
    {children : List Node} (h : t.isDue under ⟨tag, properties, children⟩ = true)
    (hseen : t.isRecognised ⟨tag, properties, children⟩ = true) (bound : Nat) :
    t.wrapAt (bound + 2) under (.element tag properties children) =
      (wrapAmong (t.wrapAt bound (t.isWrapper ⟨tag, properties, children⟩)) children).map
        fun (inner, count) =>
          ((t.wrapper ⟨tag, properties, inner⟩ (Node.textOfAll children)).node,
            1 + count) := by
  have hreplaced : t.replaced under ⟨tag, properties, children⟩ =
      (t.wrapper ⟨tag, properties, children⟩ (Node.textOfAll children), 1) := by
    rw [isDue] at h
    simp [replaced, h, Element.textContent]
  rw [isRecognised, Element.textContent] at hseen
  rw [wrapAt, hreplaced]
  simp only [hseen]
  rw [wrapper, wrapAmong, Element.node, wrapAt_of_not_isDue (t.isDue_true _)]
  cases wrapAmong (t.wrapAt bound (t.isWrapper ⟨tag, properties, children⟩)) children with
  | none => rfl
  | some result => simp [wrapAmong, wrapper, Element.node]

-- Induction on the tree.  Nothing is wrapped directly below a wrapper, so a step is saved
-- there, and it pays for the step from a new wrapper to the element that it is put around.
mutual

/-- The walk with enough steps does what the one-pass rule says if it recognises the wrappers
that it puts in.  Every level takes two steps at most, and one less suffices for a node below
a wrapper. -/
lemma wrapAt_eq_onePass (under : Bool) (bound : Nat) (n : Node)
    (hseen : ∀ e ∈ t.dueAt under n, t.isRecognised e = true)
    (hbound : 2 * n.height ≤ bound + under.toNat) :
    t.wrapAt bound under n = some (t.onePass under n, (t.dueAt under n).length) := by
  have hunder : under.toNat ≤ 1 := Bool.toNat_le under
  match n with
  | .root children =>
    rw [Node.height] at hbound
    rw [dueAt] at hseen
    obtain ⟨bound, rfl⟩ : ∃ b, bound = b + 1 := ⟨bound - 1, by omega⟩
    have ih := wrapAmong_eq_onePass false bound children hseen
      (by rw [Bool.toNat_false]; omega)
    simp [wrapAt, ih, onePass, dueAt]
  | .element tag properties children =>
    rw [Node.height] at hbound
    rw [dueAt] at hseen
    have hbelow := List.forall_mem_append.1 hseen
    cases hdue : t.isDue under ⟨tag, properties, children⟩ with
    | true =>
      obtain ⟨rfl, -⟩ := t.eq_false_of_isDue hdue
      rw [Bool.toNat_false] at hbound
      obtain ⟨bound, rfl⟩ : ∃ b, bound = b + 2 := ⟨bound - 2, by omega⟩
      have ih := wrapAmong_eq_onePass (t.isWrapper ⟨tag, properties, children⟩) bound
        children hbelow.2 (by omega)
      rw [wrapAt_of_isDue hdue (hbelow.1 _ (by simp [hdue])), ih]
      simp [onePass, dueAt, hdue, Element.textContent, Nat.add_comm]
    | false =>
      obtain ⟨bound, rfl⟩ : ∃ b, bound = b + 1 := ⟨bound - 1, by omega⟩
      have ih := wrapAmong_eq_onePass (t.isWrapper ⟨tag, properties, children⟩) bound
        children hbelow.2 (by omega)
      rw [wrapAt_of_not_isDue hdue, ih]
      simp [onePass, dueAt, hdue, Element.node]
  | .text value =>
    rw [Node.height] at hbound
    obtain ⟨bound, rfl⟩ : ∃ b, bound = b + 1 := ⟨bound - 1, by omega⟩
    simp [wrapAt, onePass, dueAt]
  | .comment value =>
    rw [Node.height] at hbound
    obtain ⟨bound, rfl⟩ : ∃ b, bound = b + 1 := ⟨bound - 1, by omega⟩
    simp [wrapAt, onePass, dueAt]
  | .doctype =>
    rw [Node.height] at hbound
    obtain ⟨bound, rfl⟩ : ∃ b, bound = b + 1 := ⟨bound - 1, by omega⟩
    simp [wrapAt, onePass, dueAt]

/-- The same for several nodes. -/
lemma wrapAmong_eq_onePass (under : Bool) (bound : Nat) (nodes : List Node)
    (hseen : ∀ e ∈ t.dueAmong under nodes, t.isRecognised e = true)
    (hbound : 2 * Node.heightOfAll nodes ≤ bound + under.toNat) :
    wrapAmong (t.wrapAt bound under) nodes =
      some (t.onePassAll under nodes, (t.dueAmong under nodes).length) := by
  match nodes with
  | [] => simp [wrapAmong, onePassAll, dueAmong]
  | n :: rest =>
    rw [Node.heightOfAll] at hbound
    rw [dueAmong] at hseen
    obtain ⟨hfirst, hlater⟩ := List.forall_mem_append.1 hseen
    have hn := wrapAt_eq_onePass under bound n hfirst (by omega)
    have hrest := wrapAmong_eq_onePass under bound rest hlater (by omega)
    simp [wrapAmong, hn, hrest, onePassAll, dueAmong]

end

/-- The walk over a document ends within its bound if it recognises the wrappers that it
puts in. -/
lemma wrap?_of_recognised {r : Root}
    (hseen : ∀ e ∈ t.dueAmong false r.children, t.isRecognised e = true) :
    t.wrap? r =
      some (⟨t.onePassAll false r.children⟩, (t.dueAmong false r.children).length) := by
  have hwalk := wrapAmong_eq_onePass false (walkBound r) r.children hseen
    (by rw [walkBound, Bool.toNat_false]; omega)
  rw [wrap?, hwalk]
  rfl

lemma wrap?_eq_some (hattr : t.rawCodeAttribute ≠ Properties.className) (r : Root) :
    t.wrap? r =
      some (⟨t.onePassAll false r.children⟩, (t.dueAmong false r.children).length) :=
  wrap?_of_recognised fun e _ => isRecognised_of_ne hattr e

lemma wrap_eq (hattr : t.rawCodeAttribute ≠ Properties.className) (r : Root) :
    t.wrap r = (⟨t.onePassAll false r.children⟩, (t.dueAmong false r.children).length) := by
  rw [wrap, wrap?_eq_some hattr r]
  rfl

end Walk

end TargetBlock

/-! ## The main result -/

/-- **Wrapping in one pass.**  If the source of a block does not take the place of the
classes of its wrapper, the walk ends on every document, leaves the document that the
one-pass rule gives, and counts the elements that the rule wraps. -/
theorem BlockWrapper.wrap_eq_onePass (w : BlockWrapper)
    (hattr : w.target.rawCodeAttribute ≠ Properties.className) (r : Root) :
    w.target.wrap? r = some (w.wrap r) ∧
      w.wrap r = (⟨w.target.onePassAll false r.children⟩,
        (w.target.dueAmong false r.children).length) := by
  have hwrap : w.wrap r = _ := TargetBlock.wrap_eq hattr r
  exact ⟨(TargetBlock.wrap?_eq_some hattr r).trans (congrArg some hwrap.symm), hwrap⟩

/-- A document with a block inside the code of a block. -/
def nestedBlocks : Root :=
  ⟨[(TargetBlock.standard.block {} [.text "A",
    (TargetBlock.standard.block {} [.text "B"]).node]).node]⟩

/-- Both blocks are wrapped, and the source of the outer one does not see the inner
wrapper. -/
theorem wrap_nestedBlocks :
    BlockWrapper.standard.target.rawCodeAttribute ≠ Properties.className ∧
      BlockWrapper.standard.wrap nestedBlocks =
        (⟨[(TargetBlock.standard.wrapper (TargetBlock.standard.block {} [.text "A",
          (TargetBlock.standard.wrapper (TargetBlock.standard.block {} [.text "B"])
            "B").node]) "AB").node]⟩, 2) := by
  have hattr : BlockWrapper.standard.target.rawCodeAttribute ≠ Properties.className := by
    decide
  have hwrap := (BlockWrapper.standard.wrap_eq_onePass hattr nestedBlocks).2
  exact ⟨hattr, hwrap.trans rfl⟩

end FencedCode
