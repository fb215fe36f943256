import FencedCode.Pipeline.Stages
import FencedCode.Proofs.Finding
import FencedCode.Proofs.Unwrapping

/-!
# Rendering what was wrapped

The stage that turns blocks into pictures looks into elements only, and not into blocks; the
pass that wraps goes everywhere.  A new wrapper is an element like any other to the renderer,
and the block in it is still a block.  So after wrapping the renderer meets the same blocks
as before, each as the only child of a wrapper, and what it leaves differs from what it
leaves without wrapping by the wrappers alone, `render_onePass`.  The main result is
`render_after_wrap`.
-/

namespace FencedCode

namespace TargetBlock

variable (t : TargetBlock)

/-! ## One step of the renderer -/

lemma renderAt_of_isTarget {e : Element} (h : t.isTarget e = true) :
    t.renderAt e.node = (picture e.textContent, 1) := by
  rw [Element.node, renderAt, if_pos h]
  rfl

/-- The element with its children as the renderer leaves them. -/
def rendered (e : Element) : Element :=
  ⟨e.tag, e.properties, (t.renderAmong e.children).1⟩

lemma renderAt_of_not_isTarget {e : Element} (h : t.isTarget e = false) :
    t.renderAt e.node = ((t.rendered e).node, (t.renderAmong e.children).2) := by
  have hnot : ¬t.isTarget ⟨e.tag, e.properties, e.children⟩ = true := Bool.eq_false_iff.1 h
  rw [Element.node, renderAt, if_neg hnot]
  rfl

lemma renderAmong_cons (n : Node) (rest : List Node) :
    t.renderAmong (n :: rest) =
      ((t.renderAt n).1 :: (t.renderAmong rest).1,
        (t.renderAt n).2 + (t.renderAmong rest).2) := by
  rw [renderAmong]

@[simp] lemma length_renderAmong (nodes : List Node) :
    (t.renderAmong nodes).1.length = nodes.length := by
  induction nodes with
  | nil => rw [renderAmong]
  | cons n rest ih => rw [renderAmong_cons, List.length_cons, List.length_cons, ih]

/-- Rendering below an element does not change whether it is a wrapper. -/
@[simp] lemma isWrapper_rendered (e : Element) :
    t.isWrapper (t.rendered e) = t.isWrapper e :=
  t.isWrapper_congr (t.length_renderAmong e.children)

/-! ## Where the pictures stand -/

mutual

/-- The pictures that the renderer puts in at and below a node, in document order, each with
the element that it stands directly in afterwards; for the node itself this is `parent`. -/
def picturesAt (parent : Option Element) : Node → List (Option Element × Node)
  | .element tag properties children =>
    let e : Element := ⟨tag, properties, children⟩
    if t.isTarget e then [(parent, picture e.textContent)]
    else picturesAmong (some ⟨tag, properties, (t.renderAmong children).1⟩) children
  | _ => []

/-- The pictures that the renderer puts in at and below several nodes. -/
def picturesAmong (parent : Option Element) : List Node → List (Option Element × Node)
  | [] => []
  | n :: rest => picturesAt parent n ++ picturesAmong parent rest

end

lemma picturesAt_of_isTarget (parent : Option Element) {e : Element}
    (h : t.isTarget e = true) :
    t.picturesAt parent e.node = [(parent, picture e.textContent)] := by
  rw [Element.node, picturesAt]
  exact if_pos h

lemma picturesAt_of_not_isTarget (parent : Option Element) {e : Element}
    (h : t.isTarget e = false) :
    t.picturesAt parent e.node = t.picturesAmong (some (t.rendered e)) e.children := by
  rw [Element.node, picturesAt]
  exact if_neg (Bool.eq_false_iff.1 h)

mutual

/-- There are as many pictures as the renderer counts. -/
lemma length_picturesAt (parent : Option Element) (n : Node) :
    (t.picturesAt parent n).length = (t.renderAt n).2 := by
  match n with
  | .element tag properties children =>
    change (t.picturesAt parent (Element.node ⟨tag, properties, children⟩)).length =
      (t.renderAt (Element.node ⟨tag, properties, children⟩)).2
    cases h : t.isTarget ⟨tag, properties, children⟩ with
    | true => rw [t.picturesAt_of_isTarget parent h, t.renderAt_of_isTarget h,
        List.length_singleton]
    | false =>
      rw [t.picturesAt_of_not_isTarget parent h, t.renderAt_of_not_isTarget h]
      exact length_picturesAmong _ children
  | .root children => simp [picturesAt, renderAt]
  | .text value => simp [picturesAt, renderAt]
  | .comment value => simp [picturesAt, renderAt]
  | .doctype => simp [picturesAt, renderAt]

/-- The same for several nodes. -/
lemma length_picturesAmong (parent : Option Element) (nodes : List Node) :
    (t.picturesAmong parent nodes).length = (t.renderAmong nodes).2 := by
  match nodes with
  | [] => simp [picturesAmong, renderAmong]
  | n :: rest =>
    rw [picturesAmong, renderAmong_cons, List.length_append, length_picturesAt parent n,
      length_picturesAmong parent rest]

end

mutual

/-- A picture takes the place of the node itself, or it stands in an element of what the
renderer leaves. -/
lemma mem_picturesAt {parent : Option Element} {n : Node} {p : Option Element × Node}
    (hp : p ∈ t.picturesAt parent n) :
    p = (parent, (t.renderAt n).1) ∨
      ∃ w ∈ (t.renderAt n).1.elements, p.1 = some w ∧ p.2 ∈ w.children := by
  match n with
  | .element tag properties children =>
    change p ∈ t.picturesAt parent (Element.node ⟨tag, properties, children⟩) at hp
    change p = (parent, (t.renderAt (Element.node ⟨tag, properties, children⟩)).1) ∨
      ∃ w ∈ (t.renderAt (Element.node ⟨tag, properties, children⟩)).1.elements,
        p.1 = some w ∧ p.2 ∈ w.children
    cases h : t.isTarget ⟨tag, properties, children⟩ with
    | true =>
      rw [t.picturesAt_of_isTarget parent h, List.mem_singleton] at hp
      rw [t.renderAt_of_isTarget h]
      exact .inl hp
    | false =>
      rw [t.picturesAt_of_not_isTarget parent h] at hp
      rw [t.renderAt_of_not_isTarget h, Node.elements_node]
      rcases mem_picturesAmong hp with ⟨hparent, hchild⟩ | ⟨w, hw, hbelow⟩
      · exact .inr ⟨t.rendered ⟨tag, properties, children⟩, List.mem_cons_self, hparent, hchild⟩
      · exact .inr ⟨w, List.mem_cons_of_mem _ hw, hbelow⟩
  | .root children => simp [picturesAt] at hp
  | .text value => simp [picturesAt] at hp
  | .comment value => simp [picturesAt] at hp
  | .doctype => simp [picturesAt] at hp

/-- The same for several nodes. -/
lemma mem_picturesAmong {parent : Option Element} {nodes : List Node}
    {p : Option Element × Node} (hp : p ∈ t.picturesAmong parent nodes) :
    (p.1 = parent ∧ p.2 ∈ (t.renderAmong nodes).1) ∨
      ∃ w ∈ Node.elementsOfAll (t.renderAmong nodes).1, p.1 = some w ∧ p.2 ∈ w.children := by
  match nodes with
  | [] => simp [picturesAmong] at hp
  | n :: rest =>
    rw [picturesAmong, List.mem_append] at hp
    rw [renderAmong_cons, Node.elementsOfAll]
    rcases hp with hp | hp
    · rcases mem_picturesAt hp with rfl | ⟨w, hw, hchild⟩
      · exact .inl ⟨rfl, List.mem_cons_self⟩
      · exact .inr ⟨w, List.mem_append_left _ hw, hchild⟩
    · rcases mem_picturesAmong hp with ⟨hparent, hchild⟩ | ⟨w, hw, hchild⟩
      · exact .inl ⟨hparent, List.mem_cons_of_mem _ hchild⟩
      · exact .inr ⟨w, List.mem_append_right _ hw, hchild⟩

end

/-! ## Rendering after wrapping -/

section AfterWrapping

variable {t}

variable (t) in
/-- The wrapper around a picture, which records the text of the picture. -/
def pictureWrapper (source : String) : Element :=
  t.wrapper ⟨"svg", {}, [.text source]⟩ source

/-- The renderer goes through a new wrapper and turns the block in it into a picture. -/
lemma rendered_wrapped (h : t.HasDistinctTags) {e : Element} (he : t.isTarget e = true) :
    t.isTarget (t.wrapped e) = false ∧ (t.renderAmong (t.wrapped e).children).2 = 1 ∧
      t.rendered (t.wrapped e) = t.pictureWrapper e.textContent := by
  have hinner : t.isTarget (t.inner e) = true :=
    (isTarget_inner h.block_ne_code h.wrapper_ne_code e).trans he
  have hchild : t.renderAmong (t.wrapped e).children = ([picture e.textContent], 1) := by
    rw [wrapped, wrapper, renderAmong_cons, t.renderAt_of_isTarget hinner, textContent_inner,
      renderAmong]
    rfl
  refine ⟨isTarget_wrapper_of_ne h.wrapper_ne_block _ _, ?_, ?_⟩
  · rw [hchild]
  · rw [rendered, hchild]
    rfl

/-- A picture is no wrapper and has none in it. -/
lemma unwrapAt_picture (hsvg : t.wrapperTag ≠ "svg") (source : String) :
    t.unwrapAt (picture source) = picture source := by
  have hnot : t.isWrapper ⟨"svg", {}, [.text source]⟩ = false := by
    simp [isWrapper, hsvg.symm]
  have htext : t.unwrapAt (.text source) = .text source := by
    rw [unwrapAt] <;> simp
  change t.unwrapAt (Element.node ⟨"svg", {}, [.text source]⟩) = _
  rw [unwrapAt_of_not_isWrapper hnot, unwrapAll, htext, unwrapAll]
  rfl

lemma unwrapAt_pictureWrapper (hattr : t.rawCodeAttribute ≠ Properties.className)
    (hsvg : t.wrapperTag ≠ "svg") (source : String) :
    t.unwrapAt (t.pictureWrapper source).node = picture source := by
  have hwrapper : t.isWrapper (t.pictureWrapper source) = true := isWrapper_wrapper hattr _ _
  exact (unwrapAt_of_isWrapper hwrapper rfl).trans (unwrapAt_picture hsvg source)

-- Induction on the tree.  Outside blocks the renderer goes the same way in both documents; at
-- a block it stops, one level further down if the block is wrapped.
mutual

/-- After wrapping the renderer counts the same blocks, and what it leaves is what it leaves
without wrapping once the wrappers are taken away. -/
lemma render_onePass (hattr : t.rawCodeAttribute ≠ Properties.className)
    (h : t.HasDistinctTags) (hsvg : t.wrapperTag ≠ "svg") (under : Bool) (n : Node)
    (hn : ∀ e ∈ n.elements, t.isWrapper e = false) :
    (t.renderAt (t.onePass under n)).2 = (t.renderAt n).2 ∧
      t.unwrapAt (t.renderAt (t.onePass under n)).1 = (t.renderAt n).1 := by
  match n with
  | .element tag properties children =>
    rw [Node.elements, List.forall_mem_cons] at hn
    obtain ⟨hself, hbelow⟩ := hn
    change (t.renderAt (t.onePass under (Element.node ⟨tag, properties, children⟩))).2 =
        (t.renderAt (Element.node ⟨tag, properties, children⟩)).2 ∧
      t.unwrapAt (t.renderAt (t.onePass under (Element.node ⟨tag, properties, children⟩))).1 =
        (t.renderAt (Element.node ⟨tag, properties, children⟩)).1
    have hinner : t.isTarget (t.inner ⟨tag, properties, children⟩) =
        t.isTarget ⟨tag, properties, children⟩ :=
      isTarget_inner h.block_ne_code h.wrapper_ne_code _
    cases htarget : t.isTarget ⟨tag, properties, children⟩ with
    | true =>
      rw [htarget] at hinner
      cases hdue : t.isDue under ⟨tag, properties, children⟩ with
      | true =>
        obtain ⟨hwrapped, hone, hleft⟩ := rendered_wrapped h htarget
        rw [t.onePass_of_isDue hdue, t.renderAt_of_isTarget htarget]
        change (t.renderAt (t.wrapped ⟨tag, properties, children⟩).node).2 = 1 ∧
          t.unwrapAt (t.renderAt (t.wrapped ⟨tag, properties, children⟩).node).1 = _
        rw [t.renderAt_of_not_isTarget hwrapped, hleft]
        exact ⟨hone, unwrapAt_pictureWrapper hattr hsvg _⟩
      | false =>
        rw [t.onePass_of_not_isDue hdue, t.renderAt_of_isTarget hinner,
          t.renderAt_of_isTarget htarget, textContent_inner]
        exact ⟨rfl, unwrapAt_picture hsvg _⟩
    | false =>
      rw [htarget] at hinner
      have hdue : t.isDue under ⟨tag, properties, children⟩ = false := by
        rw [isDue, htarget, Bool.and_false]
      have ih := render_onePassAll hattr h hsvg (t.isWrapper ⟨tag, properties, children⟩)
        children hbelow
      rw [t.onePass_of_not_isDue hdue, t.renderAt_of_not_isTarget hinner,
        t.renderAt_of_not_isTarget htarget]
      refine ⟨ih.1, ?_⟩
      have hstays : t.isWrapper (t.rendered (t.inner ⟨tag, properties, children⟩)) = false := by
        rw [isWrapper_rendered, isWrapper_inner, hself]
      rw [unwrapAt_of_not_isWrapper hstays]
      exact congrArg (Node.element tag properties) ih.2
  | .root children =>
    have hroot := unwrapAt_onePass hattr under (.root children) hn
    rw [onePass, renderAt, renderAt]
    · exact ⟨rfl, hroot⟩
    · simp
    · simp
  | .text value => simp [onePass, renderAt, unwrapAt]
  | .comment value => simp [onePass, renderAt, unwrapAt]
  | .doctype => simp [onePass, renderAt, unwrapAt]

/-- The same for several nodes. -/
lemma render_onePassAll (hattr : t.rawCodeAttribute ≠ Properties.className)
    (h : t.HasDistinctTags) (hsvg : t.wrapperTag ≠ "svg") (under : Bool) (nodes : List Node)
    (hn : ∀ e ∈ Node.elementsOfAll nodes, t.isWrapper e = false) :
    (t.renderAmong (t.onePassAll under nodes)).2 = (t.renderAmong nodes).2 ∧
      t.unwrapAll (t.renderAmong (t.onePassAll under nodes)).1 = (t.renderAmong nodes).1 := by
  match nodes with
  | [] => simp [onePassAll, renderAmong, unwrapAll]
  | n :: rest =>
    rw [Node.elementsOfAll, List.forall_mem_append] at hn
    obtain ⟨hcount, hleft⟩ := render_onePass hattr h hsvg under n hn.1
    obtain ⟨hcountRest, hleftRest⟩ := render_onePassAll hattr h hsvg under rest hn.2
    rw [onePassAll, renderAmong_cons, renderAmong_cons, unwrapAll, hcount, hleft, hcountRest,
      hleftRest]
    exact ⟨rfl, rfl⟩

end

/-! ## Pictures in wrappers -/

variable (t) in
/-- An element is a wrapper that holds a picture and nothing else, and records its text. -/
structure WrapsPicture (w : Element) (n : Node) : Prop where
  isWrapper : t.isWrapper w = true
  children : w.children = [n]
  source : ∃ text, n = picture text ∧ t.source? w = some text

lemma wrapsPicture_pictureWrapper (hattr : t.rawCodeAttribute ≠ Properties.className)
    (source : String) : t.WrapsPicture (t.pictureWrapper source) (picture source) :=
  ⟨isWrapper_wrapper hattr _ _, rfl, source, rfl, t.source?_wrapper _ _⟩

mutual

/-- Every picture that the renderer puts in after wrapping stands in a wrapper. -/
lemma exists_wrapsPicture_of_mem_picturesAt (hattr : t.rawCodeAttribute ≠ Properties.className)
    (h : t.HasDistinctTags) {parent : Option Element} (n : Node)
    (hn : ∀ e ∈ n.elements, t.isWrapper e = false) :
    ∀ p ∈ t.picturesAt parent (t.onePass false n),
      ∃ w, p.1 = some w ∧ t.WrapsPicture w p.2 := by
  intro p hp
  match n with
  | .element tag properties children =>
    rw [Node.elements, List.forall_mem_cons] at hn
    obtain ⟨hself, hbelow⟩ := hn
    change p ∈ t.picturesAt parent (t.onePass false (Element.node ⟨tag, properties, children⟩))
      at hp
    have hinner : t.isTarget (t.inner ⟨tag, properties, children⟩) =
        t.isTarget ⟨tag, properties, children⟩ :=
      isTarget_inner h.block_ne_code h.wrapper_ne_code _
    have hdue := t.isDue_false ⟨tag, properties, children⟩
    cases htarget : t.isTarget ⟨tag, properties, children⟩ with
    | true =>
      rw [htarget] at hinner hdue
      obtain ⟨hwrapped, -, hleft⟩ := rendered_wrapped h htarget
      rw [t.onePass_of_isDue hdue] at hp
      change p ∈ t.picturesAt parent (t.wrapped ⟨tag, properties, children⟩).node at hp
      rw [t.picturesAt_of_not_isTarget parent hwrapped, hleft, wrapped, wrapper, picturesAmong,
        t.picturesAt_of_isTarget _ hinner, textContent_inner, picturesAmong, List.append_nil,
        List.mem_singleton] at hp
      subst hp
      exact ⟨_, rfl, wrapsPicture_pictureWrapper hattr _⟩
    | false =>
      rw [htarget] at hinner hdue
      rw [t.onePass_of_not_isDue hdue, t.picturesAt_of_not_isTarget parent hinner, inner,
        hself] at hp
      exact exists_wrapsPicture_of_mem_picturesAmong hattr h children hbelow p hp
  | .root children => simp [onePass, picturesAt] at hp
  | .text value => simp [onePass, picturesAt] at hp
  | .comment value => simp [onePass, picturesAt] at hp
  | .doctype => simp [onePass, picturesAt] at hp

/-- The same for several nodes. -/
lemma exists_wrapsPicture_of_mem_picturesAmong
    (hattr : t.rawCodeAttribute ≠ Properties.className) (h : t.HasDistinctTags)
    {parent : Option Element} (nodes : List Node)
    (hn : ∀ e ∈ Node.elementsOfAll nodes, t.isWrapper e = false) :
    ∀ p ∈ t.picturesAmong parent (t.onePassAll false nodes),
      ∃ w, p.1 = some w ∧ t.WrapsPicture w p.2 := by
  intro p hp
  match nodes with
  | [] => simp [onePassAll, picturesAmong] at hp
  | n :: rest =>
    rw [Node.elementsOfAll, List.forall_mem_append] at hn
    rw [onePassAll, picturesAmong, List.mem_append] at hp
    rcases hp with hp | hp
    · exact exists_wrapsPicture_of_mem_picturesAt hattr h n hn.1 p hp
    · exact exists_wrapsPicture_of_mem_picturesAmong hattr h rest hn.2 p hp

end

end AfterWrapping

end TargetBlock

/-! ## The main result -/

/-- A wrapper and a renderer behind it are in order whatever they have to precede. -/
lemma Pipeline.run_wrapper_renderer {p : Pipeline} {w : BlockWrapper} {name : String}
    {t : TargetBlock} (hp : p.stages = [w.stage, .renderer name [] t]) (r : Root) :
    (p.run r).root = (t.render (w.wrap r).1).1 ∧
      (p.run r).outcome = .ok [⟨BlockWrapper.stageName, (w.wrap r).2⟩,
        ⟨name, (t.render (w.wrap r).1).2⟩] := by
  have hvalid : p.validate = .ok () := by
    rw [validate, hp, violationIn_first]
    rfl
  rw [run, hvalid, hp]
  exact ⟨rfl, rfl⟩

/-- **The renderer still finds every block.**  Let blocks, code elements and wrappers have
three different tags, wrappers not that of pictures, and let the source of a block not take
the place of the classes of its wrapper.  In a document without wrappers, the pipeline of the
wrapper and the renderer reports as many pictures as the renderer alone would.  Without the
wrappers its result is what the renderer alone leaves, and every picture that it puts in is
the only child of a wrapper, whose source is the text of the picture. -/
theorem BlockWrapper.render_after_wrap (w : BlockWrapper)
    (hattr : w.target.rawCodeAttribute ≠ Properties.className)
    (h : w.target.HasDistinctTags) (hsvg : w.target.wrapperTag ≠ "svg") {p : Pipeline}
    {name : String} (hp : p.stages = [w.stage, .renderer name [] w.target]) (r : Root)
    (hr : w.target.HasNoWrapper r) :
    (p.run r).outcome = .ok [⟨BlockWrapper.stageName, (w.wrap r).2⟩,
        ⟨name, (w.target.render r).2⟩] ∧
      w.target.unwrap (p.run r).root = (w.target.render r).1 ∧
      (w.target.picturesAmong none (w.wrap r).1.children).length = (w.target.render r).2 ∧
      ∀ q ∈ w.target.picturesAmong none (w.wrap r).1.children,
        ∃ e ∈ (p.run r).root.elements, q.1 = some e ∧ w.target.WrapsPicture e q.2 := by
  have hwrap : (w.wrap r).1 = ⟨w.target.onePassAll false r.children⟩ :=
    congrArg Prod.fst (TargetBlock.wrap_eq hattr r)
  obtain ⟨hcount, hleft⟩ :=
    TargetBlock.render_onePassAll hattr h hsvg false r.children hr
  obtain ⟨hroot, houtcome⟩ := Pipeline.run_wrapper_renderer hp r
  have hnumber : (w.target.render (w.wrap r).1).2 = (w.target.render r).2 := by
    rw [hwrap]
    exact hcount
  refine ⟨?_, ?_, ?_, fun q hq => ?_⟩
  · rw [houtcome, hnumber]
  · rw [hroot, hwrap]
    exact congrArg Root.mk hleft
  · rw [TargetBlock.length_picturesAmong]
    exact hnumber
  · have hpicture : ∃ e, q.1 = some e ∧ w.target.WrapsPicture e q.2 := by
      rw [hwrap] at hq
      exact TargetBlock.exists_wrapsPicture_of_mem_picturesAmong hattr h r.children hr q hq
    obtain ⟨e, he, hpicture⟩ := hpicture
    rw [hroot]
    -- A picture at the top of the document would not stand in a wrapper.
    rcases w.target.mem_picturesAmong hq with ⟨htop, -⟩ | ⟨f, hf, hsame, -⟩
    · rw [htop] at he
      cases he
    · rw [hsame, Option.some_inj] at he
      exact ⟨e, he ▸ hf, he ▸ hsame, hpicture⟩

/-- The wrapper and the renderer for the usual blocks. -/
def standardPipeline : Pipeline where
  stages := [BlockWrapper.standard.stage,
    .renderer BlockWrapper.rendererName [] TargetBlock.standard]
  distinct := by decide

/-- A document with blocks inside a block, in an element and in a root. -/
def scatteredBlocks : Root :=
  ⟨nestedBlocks.children ++
    [.element "div" {} [(TargetBlock.standard.block {} [.text "C"]).node],
      .root [(TargetBlock.standard.block {} [.text "D"]).node]]⟩

/-- Four blocks are wrapped, of which the renderer reaches two. -/
theorem BlockWrapper.render_after_wrap_scatteredBlocks :
    standard.target.rawCodeAttribute ≠ Properties.className ∧
      standard.target.HasDistinctTags ∧ standard.target.wrapperTag ≠ "svg" ∧
      standardPipeline.stages =
        [standard.stage, .renderer rendererName [] standard.target] ∧
      standard.target.HasNoWrapper scatteredBlocks ∧
      (standardPipeline.run scatteredBlocks).outcome =
        .ok [⟨stageName, 4⟩, ⟨rendererName, 2⟩] ∧
      standard.target.unwrap (standardPipeline.run scatteredBlocks).root =
        ⟨[TargetBlock.picture "AB", .element "div" {} [TargetBlock.picture "C"],
          .root [(TargetBlock.standard.block {} [.text "D"]).node]]⟩ := by
  have hattr : standard.target.rawCodeAttribute ≠ Properties.className := by decide
  have htags : standard.target.HasDistinctTags := ⟨by decide, by decide, by decide⟩
  have hsvg : standard.target.wrapperTag ≠ "svg" := by decide
  have hstages : standardPipeline.stages =
      [standard.stage, .renderer rendererName [] standard.target] := rfl
  have hfree : standard.target.HasNoWrapper scatteredBlocks := by decide
  obtain ⟨houtcome, hleft, -⟩ :=
    standard.render_after_wrap hattr htags hsvg hstages scatteredBlocks hfree
  exact ⟨hattr, htags, hsvg, hstages, hfree, houtcome.trans rfl, hleft.trans rfl⟩

end FencedCode
