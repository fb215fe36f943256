import FencedCode.Proofs.AcceptedSettings

/-!
# Which walks have an end

The walk that wraps target blocks goes down into the wrapper that it has just put in the
place of a block, and meets the block again there.  It leaves the block alone if it
recognises the wrapper, and if it does not it wraps the block once more, and so on without
an end.  A wrapper is always recognised unless its source takes the place of its classes;
then it is recognised exactly if the marker class is one of the words of the source,
`isRecognised_iff`.  The main result, `walk_returns_iff`, is that the walk over a document
returns exactly if all wrappers that it puts in are recognised.

That a walk returns is said of the visits it consists of, without any bound: a visit returns
if all visits that it makes in turn do, `Returns`.  The bound of `wrap?` is no restriction,
`returns_iff_isSome_wrap?`.
-/

namespace FencedCode

/-- A visit of the walk: the node that is visited, and whether its parent is a wrapper. -/
structure Visit where
  /-- Whether the parent is a wrapper. -/
  under : Bool
  /-- The node. -/
  node : Node

/-- The visit with which the walk over a document begins. -/
def Root.visit (r : Root) : Visit :=
  ⟨false, r.node⟩

namespace TargetBlock

variable (t : TargetBlock)

/-! ## Visits -/

/-- The visits to the children of an element. -/
def visitsOf (e : Element) : List Visit :=
  e.children.map fun n => ⟨t.isWrapper e, n⟩

/-- The visits that a visit makes in turn.  An element that is to be wrapped has made room
for its wrapper by then. -/
def visitsBelow : Visit → List Visit
  | ⟨under, .element tag properties children⟩ =>
    t.visitsOf (t.replaced under ⟨tag, properties, children⟩).1
  | ⟨_, .root children⟩ => children.map fun n => ⟨false, n⟩
  | _ => []

/-- A visit that returns: all visits that it makes in turn return. -/
inductive Returns : Visit → Prop
  | intro {v : Visit} (h : ∀ w ∈ t.visitsBelow v, Returns w) : Returns v

/-- A visit from which the walk goes down without an end. -/
def DescendsForever (v : Visit) : Prop :=
  ∃ way : ℕ → Visit, way 0 = v ∧ ∀ i, way (i + 1) ∈ t.visitsBelow (way i)

variable {t}

/-- An element that is to be wrapped is visited again, below its wrapper. -/
lemma visitsBelow_of_isDue {under : Bool} {e : Element} (h : t.isDue under e = true) :
    t.visitsBelow ⟨under, e.node⟩ = [⟨t.isRecognised e, e.node⟩] := by
  rw [isDue] at h
  simp [Element.node, visitsBelow, replaced, h, visitsOf, wrapper, isRecognised]

lemma visitsBelow_of_not_isDue {under : Bool} {e : Element} (h : t.isDue under e = false) :
    t.visitsBelow ⟨under, e.node⟩ = t.visitsOf e := by
  rw [isDue] at h
  simp [Element.node, visitsBelow, replaced, h]

lemma mem_visitsOf {e : Element} {n : Node} (h : n ∈ e.children) :
    ⟨t.isWrapper e, n⟩ ∈ t.visitsOf e :=
  List.mem_map_of_mem h

/-! ## Walks without an end -/

lemma DescendsForever.of_mem {v w : Visit} (hw : w ∈ t.visitsBelow v)
    (h : t.DescendsForever w) : t.DescendsForever v := by
  obtain ⟨way, rfl, hstep⟩ := h
  refine ⟨fun i => Nat.casesOn i v way, rfl, fun i => ?_⟩
  cases i with
  | zero => exact hw
  | succ i => exact hstep i

/-- A visit that makes itself in turn goes on without an end. -/
lemma descendsForever_of_mem_self {v : Visit} (h : v ∈ t.visitsBelow v) :
    t.DescendsForever v :=
  ⟨fun _ => v, rfl, fun _ => h⟩

/-- A walk that returns has no way down without an end. -/
lemma Returns.not_descendsForever {v : Visit} (h : t.Returns v) : ¬t.DescendsForever v := by
  induction h with
  | intro _ ih =>
    rintro ⟨way, rfl, hstep⟩
    exact ih (way 1) (hstep 0) ⟨fun i => way (i + 1), rfl, fun i => hstep (i + 1)⟩

/-- If the wrapper of a block is not recognised, the walk goes down without an end at the
block: below the wrapper it is in the same position again. -/
lemma descendsForever_of_isDue {under : Bool} {e : Element} (hdue : t.isDue under e = true)
    (hunseen : t.isRecognised e = false) : t.DescendsForever ⟨under, e.node⟩ := by
  obtain ⟨rfl, -⟩ := t.eq_false_of_isDue hdue
  have hself := visitsBelow_of_isDue hdue
  rw [hunseen] at hself
  exact descendsForever_of_mem_self (hself ▸ List.mem_singleton_self _)

/-- An element is visited in its own right, or else below its wrapper, and in either case the
walk goes on to its children. -/
lemma DescendsForever.of_child {under : Bool} {e : Element} {n : Node} (hn : n ∈ e.children)
    (h : t.DescendsForever ⟨t.isWrapper e, n⟩) : t.DescendsForever ⟨under, e.node⟩ := by
  have hbelow : ∀ {under : Bool}, t.isDue under e = false →
      t.DescendsForever ⟨under, e.node⟩ := fun hdue =>
    h.of_mem (visitsBelow_of_not_isDue hdue ▸ mem_visitsOf hn)
  cases hdue : t.isDue under e with
  | false => exact hbelow hdue
  | true =>
    cases hseen : t.isRecognised e with
    | false => exact descendsForever_of_isDue hdue hseen
    | true =>
      have hagain := visitsBelow_of_isDue hdue
      rw [hseen] at hagain
      exact (hbelow (t.isDue_true e)).of_mem (hagain ▸ List.mem_singleton_self _)

mutual

/-- An element whose wrapper is not recognised lets the walk over the node that it is in go
down without an end. -/
lemma descendsForever_of_mem_dueAt {under : Bool} {n : Node} {e : Element}
    (he : e ∈ t.dueAt under n) (hunseen : t.isRecognised e = false) :
    t.DescendsForever ⟨under, n⟩ := by
  match n with
  | .root children =>
    rw [dueAt] at he
    obtain ⟨n, hn, h⟩ := exists_descendsForever_of_mem_dueAmong he hunseen
    exact h.of_mem (List.mem_map_of_mem hn)
  | .element tag properties children =>
    rw [dueAt, List.mem_append] at he
    rcases he with hhere | hbelow
    · obtain ⟨hdue, rfl⟩ : t.isDue under ⟨tag, properties, children⟩ = true ∧
          e = ⟨tag, properties, children⟩ := by simpa using hhere
      exact descendsForever_of_isDue hdue hunseen
    · obtain ⟨n, hn, h⟩ := exists_descendsForever_of_mem_dueAmong hbelow hunseen
      exact DescendsForever.of_child (e := ⟨tag, properties, children⟩) hn h
  | .text _ => simp [dueAt] at he
  | .comment _ => simp [dueAt] at he
  | .doctype => simp [dueAt] at he

/-- The same for several nodes. -/
lemma exists_descendsForever_of_mem_dueAmong {under : Bool} {nodes : List Node} {e : Element}
    (he : e ∈ t.dueAmong under nodes) (hunseen : t.isRecognised e = false) :
    ∃ n ∈ nodes, t.DescendsForever ⟨under, n⟩ := by
  match nodes with
  | [] => simp [dueAmong] at he
  | n :: rest =>
    rw [dueAmong, List.mem_append] at he
    rcases he with hfirst | hlater
    · exact ⟨n, List.mem_cons_self, descendsForever_of_mem_dueAt hfirst hunseen⟩
    · obtain ⟨m, hm, h⟩ := exists_descendsForever_of_mem_dueAmong hlater hunseen
      exact ⟨m, List.mem_cons_of_mem _ hm, h⟩

end

/-! ## Walks with an end -/

lemma exists_of_wrapAmong_eq_some {wrapOne : Node → Option (Node × Nat)} {nodes : List Node}
    {result : List Node × Nat} (h : wrapAmong wrapOne nodes = some result) :
    ∀ n ∈ nodes, ∃ one, wrapOne n = some one := by
  induction nodes generalizing result with
  | nil => simp
  | cons n rest ih =>
    rw [wrapAmong] at h
    obtain ⟨one, hone, h⟩ := Option.bind_eq_some_iff.1 h
    obtain ⟨others, hothers, -⟩ := Option.bind_eq_some_iff.1 h
    exact List.forall_mem_cons.2 ⟨⟨one, hone⟩, ih hothers⟩

/-- The visits to several nodes return if the walk over them is done, and so does every single
one of the nodes. -/
lemma returns_of_wrapAmong_eq_some {bound : Nat} {under : Bool} {nodes : List Node}
    {result : List Node × Nat}
    (hreturns : ∀ n one, t.wrapAt bound under n = some one → t.Returns ⟨under, n⟩)
    (h : wrapAmong (t.wrapAt bound under) nodes = some result) :
    ∀ w ∈ nodes.map fun n => (⟨under, n⟩ : Visit), t.Returns w := by
  intro w hw
  obtain ⟨n, hn, rfl⟩ := List.mem_map.1 hw
  obtain ⟨one, hone⟩ := exists_of_wrapAmong_eq_some h n hn
  exact hreturns n one hone

/-- A walk that is done within a bound returns. -/
lemma returns_of_wrapAt_eq_some {bound : Nat} {under : Bool} {n : Node} {result : Node × Nat}
    (h : t.wrapAt bound under n = some result) : t.Returns ⟨under, n⟩ := by
  induction bound generalizing under n result with
  | zero => cases h
  | succ bound ih =>
    match n with
    | .root children =>
      rw [wrapAt] at h
      obtain ⟨below, hbelow, -⟩ := Option.bind_eq_some_iff.1 h
      exact .intro (returns_of_wrapAmong_eq_some (fun _ _ => ih) hbelow)
    | .element tag properties children =>
      rw [wrapAt] at h
      obtain ⟨below, hbelow, -⟩ := Option.bind_eq_some_iff.1 h
      exact .intro (returns_of_wrapAmong_eq_some (fun _ _ => ih) hbelow)
    | .text _ => exact .intro fun w hw => nomatch hw
    | .comment _ => exact .intro fun w hw => nomatch hw
    | .doctype => exact .intro fun w hw => nomatch hw

lemma returns_of_isSome_wrap? {r : Root} (h : (t.wrap? r).isSome = true) :
    t.Returns r.visit := by
  rw [wrap?, Option.isSome_map] at h
  obtain ⟨below, hbelow⟩ := Option.isSome_iff_exists.1 h
  exact .intro (returns_of_wrapAmong_eq_some (fun _ _ => returns_of_wrapAt_eq_some) hbelow)

/-! ## What decides -/

/-- The walk goes down without an end as soon as one wrapper is not recognised. -/
lemma descendsForever_of_unrecognised {r : Root}
    (h : ¬∀ e ∈ t.dueAmong false r.children, t.isRecognised e = true) :
    t.DescendsForever r.visit := by
  push Not at h
  obtain ⟨e, he, hunseen⟩ := h
  exact descendsForever_of_mem_dueAt (n := r.node) he (Bool.eq_false_iff.2 hunseen)

/-- The walk returns exactly if it recognises every wrapper that it puts in. -/
lemma returns_iff_recognised (r : Root) :
    t.Returns r.visit ↔ ∀ e ∈ t.dueAmong false r.children, t.isRecognised e = true := by
  constructor
  · intro h
    by_contra hunseen
    exact h.not_descendsForever (descendsForever_of_unrecognised hunseen)
  · intro hseen
    exact returns_of_isSome_wrap? (wrap?_of_recognised hseen ▸ rfl)

/-- The bound of the walk keeps no walk from its end. -/
lemma returns_iff_isSome_wrap? (r : Root) :
    t.Returns r.visit ↔ (t.wrap? r).isSome = true :=
  ⟨fun h => wrap?_of_recognised ((returns_iff_recognised r).1 h) ▸ rfl, returns_of_isSome_wrap?⟩

/-- If the source takes the place of the classes, a wrapper is recognised exactly if the
marker class is one of the words of the source. -/
lemma isRecognised_iff (hattr : t.rawCodeAttribute = Properties.className) (e : Element) :
    t.isRecognised e = true ↔ t.markerClass ∈ Text.words e.textContent := by
  have hclass : (t.wrapperProperties e.textContent).get? Properties.className =
      some (.text e.textContent) :=
    hattr ▸ get?_rawCodeAttribute_wrapperProperties e.textContent
  simp [isRecognised, isWrapper, wrapper, Properties.hasClass, Properties.classTokens, hattr,
    hclass, PropertyValue.tokens?, PropertyValue.asText?]

/-! ## The main result -/

/-- **Termination of wrapping.**  If the source of a block does not take the place of the
classes of its wrapper, every wrapper is recognised and the walk over every document returns;
accepted settings are of this kind.  If it does, the walk over a document returns exactly if
the marker class is one of the words of the source of every target block that does not stand
directly below a wrapper, and otherwise it goes down without an end.  The walk returns exactly
if it gives a result. -/
theorem walk_returns_iff (t : TargetBlock) :
    (t.rawCodeAttribute ≠ Properties.className →
      (∀ e source, t.isWrapper (t.wrapper e source) = true) ∧ ∀ r : Root, t.Returns r.visit) ∧
    (∀ s : Settings, s.validate = .ok () → s.targetBlock = t → ∀ r : Root, t.Returns r.visit) ∧
    (t.rawCodeAttribute = Properties.className → ∀ r : Root,
      (t.Returns r.visit ↔
        ∀ e ∈ t.dueAmong false r.children, t.markerClass ∈ Text.words e.textContent) ∧
      (¬t.Returns r.visit → t.DescendsForever r.visit)) ∧
    ∀ r : Root, (t.Returns r.visit ↔ ∃ result, t.wrap? r = some result) := by
  have hreturns : t.rawCodeAttribute ≠ Properties.className → ∀ r : Root, t.Returns r.visit :=
    fun hattr r => (returns_iff_recognised r).2 fun e _ => isRecognised_of_ne hattr e
  refine ⟨fun hattr => ⟨isWrapper_wrapper hattr, hreturns hattr⟩, ?_, fun hattr r => ⟨?_, ?_⟩,
    fun r => (returns_iff_isSome_wrap? r).trans Option.isSome_iff_exists⟩
  · rintro s hvalid rfl
    exact hreturns (Settings.validate_eq_ok_iff.1 hvalid).rawCodeAttribute_ne_className
  · simp only [returns_iff_recognised, isRecognised_iff hattr]
  · intro hstuck
    exact descendsForever_of_unrecognised (mt (returns_iff_recognised r).2 hstuck)

/-- Blocks whose source takes the place of the classes of the wrapper. -/
def classless : TargetBlock :=
  { standard with rawCodeAttribute := Properties.className }

/-- A document with a block that names the marker class in its code. -/
def selfNamedBlock : Root :=
  ⟨[(classless.block {} [.text "graph TD\n  mermaid-wrapper --> B"]).node]⟩

/-- With the source in the place of the classes, the walk over a block that names the marker
class returns, and the walk over blocks that do not name it goes down without an end. -/
theorem walk_returns_classless :
    classless.rawCodeAttribute = Properties.className ∧
      classless.Returns selfNamedBlock.visit ∧ classless.DescendsForever nestedBlocks.visit ∧
      standard.rawCodeAttribute ≠ Properties.className ∧ standard.Returns nestedBlocks.visit := by
  have hattr : classless.rawCodeAttribute = Properties.className := rfl
  have hstandard : standard.rawCodeAttribute ≠ Properties.className := by decide
  obtain ⟨-, -, hclassless, -⟩ := walk_returns_iff classless
  have hnamed : ∀ e ∈ classless.dueAmong false selfNamedBlock.children,
      classless.markerClass ∈ Text.words e.textContent := by decide +kernel
  have hunnamed : ¬∀ e ∈ classless.dueAmong false nestedBlocks.children,
      classless.markerClass ∈ Text.words e.textContent := by decide +kernel
  obtain ⟨hiff, hforever⟩ := hclassless hattr nestedBlocks
  exact ⟨hattr, (hclassless hattr selfNamedBlock).1.2 hnamed, hforever (mt hiff.1 hunnamed),
    hstandard, ((walk_returns_iff standard).1 hstandard).2 nestedBlocks⟩

end TargetBlock

end FencedCode
