import FencedCode.Proofs.Finding

/-!
# Wrapping twice

A second pass meets wrappers where the first met blocks.  A wrapper can pass for a block
only if blocks, code elements and wrappers have the same tag, and it can make a block of the
element around it only if it has the tag and the class of a code element.  The main result,
`wrap_twice_iff`, is that these are the only ways in which a second pass can find something.
-/

namespace FencedCode

namespace TargetBlock

variable {t : TargetBlock}

/-! ## Nothing is left to be wrapped -/

/-- What becomes of a node can be the code element of a block only if the node is one. -/
lemma isCode_of_isCode_onePass (hattr : t.rawCodeAttribute ≠ Properties.className)
    (hcode : ¬(t.wrapperTag = t.codeTag ∧ t.languageClass = t.markerClass))
    {under : Bool} {n : Node} (h : t.isCode (t.onePass under n) = true) :
    t.isCode n = true := by
  match n with
  | .root children => simp [onePass, isCode] at h
  | .text value => simp [onePass, isCode] at h
  | .comment value => simp [onePass, isCode] at h
  | .doctype => simp [onePass, isCode] at h
  | .element tag properties children =>
    change t.isCode (t.onePass under (Element.node ⟨tag, properties, children⟩)) = true at h
    cases hdue : t.isDue under ⟨tag, properties, children⟩ with
    | true =>
      rw [t.onePass_of_isDue hdue, isCode_wrapper hattr, Bool.and_eq_true,
        decide_eq_true_eq, decide_eq_true_eq] at h
      exact absurd h hcode
    | false =>
      rw [t.onePass_of_not_isDue hdue] at h
      exact h

/-- Wrapping below an element makes no target block of it. -/
lemma isTarget_of_isTarget_inner (hattr : t.rawCodeAttribute ≠ Properties.className)
    (hcode : ¬(t.wrapperTag = t.codeTag ∧ t.languageClass = t.markerClass))
    {e : Element} (h : t.isTarget (t.inner e) = true) : t.isTarget e = true := by
  rw [isTarget_eq, Bool.and_eq_true] at h ⊢
  refine ⟨h.1, ?_⟩
  have hfirst := h.2
  rw [inner] at hfirst
  cases hchildren : e.children with
  | nil => simp [hchildren, onePassAll] at hfirst
  | cons n rest =>
    simp only [hchildren, onePassAll, List.head?_cons, Option.any_some] at hfirst ⊢
    exact isCode_of_isCode_onePass hattr hcode hfirst

/-- The wrapper around a target block is no target block. -/
lemma isTarget_wrapper_inner (htags : ¬(t.blockTag = t.codeTag ∧ t.codeTag = t.wrapperTag))
    {e : Element} (h : t.isTarget e = true) (source : String) :
    t.isTarget (t.wrapper (t.inner e) source) = false := by
  have htag : e.tag = t.blockTag := t.tag_of_isTarget h
  exact Bool.eq_false_iff.2 fun hwrapper =>
    htags (tags_of_isTarget_wrapper (show (t.inner e).tag = _ from htag) hwrapper)

mutual

/-- Nothing is to be wrapped in what the one-pass rule leaves. -/
lemma dueAt_onePass (hattr : t.rawCodeAttribute ≠ Properties.className)
    (htags : ¬(t.blockTag = t.codeTag ∧ t.codeTag = t.wrapperTag))
    (hcode : ¬(t.wrapperTag = t.codeTag ∧ t.languageClass = t.markerClass))
    (under : Bool) (n : Node) : t.dueAt under (t.onePass under n) = [] := by
  match n with
  | .root children =>
    rw [onePass, dueAt]
    exact dueAmong_onePassAll hattr htags hcode false children
  | .text value => simp [onePass, dueAt]
  | .comment value => simp [onePass, dueAt]
  | .doctype => simp [onePass, dueAt]
  | .element tag properties children =>
    have ih := dueAmong_onePassAll hattr htags hcode
      (t.isWrapper ⟨tag, properties, children⟩) children
    have hinner : t.dueAmong (t.isWrapper (t.inner ⟨tag, properties, children⟩))
        (t.inner ⟨tag, properties, children⟩).children = [] := by
      rw [isWrapper_inner]
      exact ih
    change t.dueAt under (t.onePass under (Element.node ⟨tag, properties, children⟩)) = []
    cases hdue : t.isDue under ⟨tag, properties, children⟩ with
    | true =>
      -- The wrapper is no target block, and directly below it the block is left alone.
      obtain ⟨rfl, htarget⟩ := t.eq_false_of_isDue hdue
      have hwrapper := isTarget_wrapper_inner htags htarget
      rw [t.onePass_of_isDue hdue, t.dueAt_of_not_isDue ((t.isDue_false _).trans (hwrapper _)),
        isWrapper_wrapper hattr]
      change t.dueAt true (t.inner ⟨tag, properties, children⟩).node ++ [] = []
      rw [t.dueAt_of_not_isDue (t.isDue_true _), hinner, List.append_nil]
    | false =>
      have hstays : t.isDue under (t.inner ⟨tag, properties, children⟩) = false := by
        rw [isDue, Bool.and_eq_false_iff] at hdue ⊢
        refine hdue.imp id fun h => Bool.eq_false_iff.2 fun htarget => ?_
        exact Bool.eq_false_iff.1 h (isTarget_of_isTarget_inner hattr hcode htarget)
      rw [t.onePass_of_not_isDue hdue, t.dueAt_of_not_isDue hstays, hinner]

/-- The same for several nodes. -/
lemma dueAmong_onePassAll (hattr : t.rawCodeAttribute ≠ Properties.className)
    (htags : ¬(t.blockTag = t.codeTag ∧ t.codeTag = t.wrapperTag))
    (hcode : ¬(t.wrapperTag = t.codeTag ∧ t.languageClass = t.markerClass))
    (under : Bool) (nodes : List Node) :
    t.dueAmong under (t.onePassAll under nodes) = [] := by
  match nodes with
  | [] => simp [onePassAll, dueAmong]
  | n :: rest =>
    rw [onePassAll, dueAmong, dueAt_onePass hattr htags hcode under n,
      dueAmong_onePassAll hattr htags hcode under rest]
    rfl

end

/-- A second pass wraps nothing and changes nothing if it finds nothing. -/
lemma wrap_eq_self_of_find_eq_nil (hattr : t.rawCodeAttribute ≠ Properties.className)
    {r : Root} (h : t.find r = []) : t.wrap r = (r, 0) := by
  rw [find_eq_nil_iff] at h
  rw [wrap_eq hattr, h, t.onePassAll_eq_self false r.children h]
  rfl

/-- Nothing is found in a wrapped document, unless wrappers can pass for something else. -/
lemma wrap_wrap_of_tags (hattr : t.rawCodeAttribute ≠ Properties.className)
    (htags : ¬(t.blockTag = t.codeTag ∧ t.codeTag = t.wrapperTag))
    (hcode : ¬(t.wrapperTag = t.codeTag ∧ t.languageClass = t.markerClass)) (r : Root) :
    t.wrap (t.wrap r).1 = ((t.wrap r).1, 0) ∧ t.find (t.wrap r).1 = [] := by
  have hfind : t.find (t.wrap r).1 = [] := by
    rw [find_eq_nil_iff, wrap_eq hattr]
    exact dueAmong_onePassAll hattr htags hcode false r.children
  exact ⟨wrap_eq_self_of_find_eq_nil hattr hfind, hfind⟩

/-! ## The two ways to find something -/

/-- A target block at the top of a document is found. -/
lemma find_ne_nil {e : Element} (h : t.isTarget e = true) : t.find ⟨[e.node]⟩ ≠ [] := by
  have hdue : t.isDue false e = true := (t.isDue_false e).trans h
  rw [Ne, find_eq_nil_iff, dueAmong, t.dueAt_of_isDue hdue]
  exact List.cons_ne_nil _ _

/-- If all tags are the same, the wrapper around a block that has the language class itself
is a target block. -/
lemma find_wrap_of_same_tags (hattr : t.rawCodeAttribute ≠ Properties.className)
    (htags : t.blockTag = t.codeTag ∧ t.codeTag = t.wrapperTag) :
    t.find (t.wrap ⟨[(t.block t.codeProperties []).node]⟩).1 ≠ [] := by
  have hdue : t.isDue false (t.block t.codeProperties []) = true :=
    (t.isDue_false _).trans (t.isTarget_block t.codeProperties [])
  have hwrapper : ∀ source : String,
      t.isTarget (t.wrapper (t.inner (t.block t.codeProperties [])) source) = true := by
    intro source
    simp [isTarget_eq, wrapper, inner, block, Element.node, isCode, hasClass_codeProperties,
      htags.1, htags.2]
  rw [wrap_eq hattr, onePassAll, t.onePass_of_isDue hdue]
  exact find_ne_nil (hwrapper _)

/-- If a wrapper has the tag and the class of a code element, an element with the tag of a
block becomes a target block when a block in it is wrapped. -/
lemma find_wrap_of_same_class (hattr : t.rawCodeAttribute ≠ Properties.className)
    (hcode : t.wrapperTag = t.codeTag ∧ t.languageClass = t.markerClass) :
    t.find (t.wrap ⟨[(⟨t.blockTag, {}, [(t.block {} []).node]⟩ : Element).node]⟩).1 ≠ [] := by
  have hempty : ∀ token : String, Properties.hasClass {} token = false := fun token => rfl
  have hdue : t.isDue false (t.block {} []) = true :=
    (t.isDue_false _).trans (t.isTarget_block {} [])
  have houter : t.isDue false ⟨t.blockTag, {}, [(t.block {} []).node]⟩ = false := by
    simp [isTarget_eq, block, Element.node, isCode, hempty]
  have hnoWrapper : t.isWrapper ⟨t.blockTag, {}, [(t.block {} []).node]⟩ = false := by
    simp [isWrapper, hempty]
  -- The wrapper of the block is the first child of the element and passes for its code.
  have hbecomes : t.isTarget (t.inner ⟨t.blockTag, {}, [(t.block {} []).node]⟩) = true := by
    rw [inner, hnoWrapper, onePassAll, t.onePass_of_isDue hdue]
    simp [isTarget_eq, isCode_wrapper hattr, hcode.1, hcode.2]
  rw [wrap_eq hattr, onePassAll, t.onePass_of_not_isDue houter]
  exact find_ne_nil hbecomes

/-! ## The main result -/

/-- **Wrapping twice.**  If the source of a block does not take the place of the classes of
its wrapper, a second pass over a wrapped document finds nothing and changes nothing,
whatever the document, exactly if neither blocks, code elements and wrappers all have the
same tag, nor wrappers have the tag and the class of a code element.  So it is for the usual
blocks. -/
theorem wrap_twice_iff (t : TargetBlock)
    (hattr : t.rawCodeAttribute ≠ Properties.className) :
    ((∀ r : Root, t.wrap (t.wrap r).1 = ((t.wrap r).1, 0) ∧ t.find (t.wrap r).1 = []) ↔
      ¬(t.blockTag = t.codeTag ∧ t.codeTag = t.wrapperTag) ∧
        ¬(t.wrapperTag = t.codeTag ∧ t.languageClass = t.markerClass)) ∧
    ∀ r : Root, standard.wrap (standard.wrap r).1 = ((standard.wrap r).1, 0) ∧
      standard.find (standard.wrap r).1 = [] := by
  refine ⟨⟨fun h => ⟨fun htags => ?_, fun hcode => ?_⟩,
    fun h => wrap_wrap_of_tags hattr h.1 h.2⟩, ?_⟩
  · exact find_wrap_of_same_tags hattr htags (h _).2
  · exact find_wrap_of_same_class hattr hcode (h _).2
  · exact wrap_wrap_of_tags (by decide) (by decide) (by decide)

/-- The usual wrappers are stable, and wrappers that are code elements of the language are
not. -/
theorem wrap_twice_standard :
    standard.rawCodeAttribute ≠ Properties.className ∧
      standard.wrap (standard.wrap nestedBlocks).1 = ((standard.wrap nestedBlocks).1, 0) ∧
      ¬∀ r : Root,
        let t : TargetBlock :=
          { standard with wrapperTag := "code", markerClass := "language-mermaid" }
        t.wrap (t.wrap r).1 = ((t.wrap r).1, 0) ∧ t.find (t.wrap r).1 = [] := by
  have hattr : standard.rawCodeAttribute ≠ Properties.className := by decide
  refine ⟨hattr, ((wrap_twice_iff standard hattr).1.2 (by decide) nestedBlocks).1, fun h => ?_⟩
  exact absurd ((wrap_twice_iff _ (by decide)).1.1 h).2 (by decide)

end TargetBlock

end FencedCode
