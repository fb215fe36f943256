import FencedCode.Proofs.Conservation

/-!
# Several languages

The blocks of two languages have the same tags and the same wrapper, and only the class of
the code tells them apart.  A pass for one language leaves the blocks of the other as they
are seen: it keeps their tags and their first children, and neither a new wrapper nor what
stands directly below it is taken for a block.  So two passes, in either order, come to one
pass for both languages, `onePass_onePass`, in which a block with both classes is wrapped
once.  The main result is `wrap_languages_comm`.
-/

namespace FencedCode

namespace TargetBlock

variable (t : TargetBlock)

/-- The same blocks and the same wrapper for another class of the code. -/
def withLanguageClass (languageClass : String) : TargetBlock :=
  { t with languageClass }

/-- Whether an element is a block of one of two languages. -/
def isEither (l m : String) (e : Element) : Bool :=
  (t.withLanguageClass l).isTarget e || (t.withLanguageClass m).isTarget e

/-! ## One pass for any choice of elements -/

section Choice

variable (p : Element → Bool)

mutual

/-- What becomes of a node when the elements that `p` holds of are wrapped, unless their
parent is a wrapper; `under` says whether the parent of the node is one. -/
def wrapWhere (under : Bool) : Node → Node
  | .root children => .root (wrapAllWhere false children)
  | .element tag properties children =>
    let e : Element := ⟨tag, properties, children⟩
    let inner : Element := ⟨tag, properties, wrapAllWhere (t.isWrapper e) children⟩
    if !under && p e then (t.wrapper inner e.textContent).node else inner.node
  | n => n

/-- What becomes of several nodes, each in its place. -/
def wrapAllWhere (under : Bool) : List Node → List Node
  | [] => []
  | n :: rest => wrapWhere under n :: wrapAllWhere under rest

end

end Choice

mutual

/-- The elements at and below a node whose parent is no wrapper, in document order. -/
def exposedAt (under : Bool) : Node → List Element
  | .root children => exposedAmong false children
  | .element tag properties children =>
    let e : Element := ⟨tag, properties, children⟩
    (if under then [] else [e]) ++ exposedAmong (t.isWrapper e) children
  | _ => []

/-- The elements at and below several nodes whose parent is no wrapper. -/
def exposedAmong (under : Bool) : List Node → List Element
  | [] => []
  | n :: rest => exposedAt under n ++ exposedAmong under rest

end

/-- The elements of a document whose parent is no wrapper, in document order. -/
def exposed (r : Root) : List Element :=
  t.exposedAmong false r.children

/-! ## Two passes are one -/

section TwoPasses

variable {t}

lemma isEither_comm (l m : String) : t.isEither l m = t.isEither m l :=
  funext fun _ => Bool.or_comm _ _

/-- A block of either language is due for one of the two passes. -/
lemma not_and_isEither (l m : String) (under : Bool) (e : Element) :
    (!under && t.isEither l m e) =
      ((t.withLanguageClass l).isDue under e || (t.withLanguageClass m).isDue under e) := by
  rw [isEither, Bool.and_or_distrib_left, isDue, isDue]

/-- A pass for one language leaves the blocks of another as they are seen. -/
lemma isDue_inner_withLanguageClass (h : t.HasDistinctTags) (l m : String) (under : Bool)
    (e : Element) :
    (t.withLanguageClass m).isDue under ((t.withLanguageClass l).inner e) =
      (t.withLanguageClass m).isDue under e := by
  have htarget : (t.withLanguageClass m).isTarget ((t.withLanguageClass l).inner e) =
      (t.withLanguageClass m).isTarget e :=
    isTarget_inner (t := t.withLanguageClass l) (u := t.withLanguageClass m)
      h.block_ne_code h.wrapper_ne_code e
  rw [isDue, isDue, htarget]

/-- A new wrapper is no block of another language. -/
lemma isDue_wrapped_withLanguageClass (h : t.HasDistinctTags) (l m : String) (under : Bool)
    (e : Element) :
    (t.withLanguageClass m).isDue under ((t.withLanguageClass l).wrapped e) = false := by
  rw [isDue, Bool.and_eq_false_iff]
  exact .inr (isTarget_wrapper_of_ne (t := t.withLanguageClass l) (u := t.withLanguageClass m)
    h.wrapper_ne_block _ _)

/-- The second pass goes through a new wrapper and the block in it without wrapping them. -/
lemma inner_wrapped_withLanguageClass (hattr : t.rawCodeAttribute ≠ Properties.className)
    (l m : String) (e : Element) :
    (t.withLanguageClass m).inner ((t.withLanguageClass l).wrapped e) =
      t.wrapper ((t.withLanguageClass m).inner ((t.withLanguageClass l).inner e))
        e.textContent := by
  have hwrapper : (t.withLanguageClass m).isWrapper ((t.withLanguageClass l).wrapped e) = true :=
    isWrapper_wrapped (t := t.withLanguageClass l) hattr e
  have hblock : (t.withLanguageClass m).onePass true ((t.withLanguageClass l).inner e).node =
      ((t.withLanguageClass m).inner ((t.withLanguageClass l).inner e)).node :=
    onePass_of_not_isDue _ (isDue_true _ _)
  rw [inner, hwrapper]
  simp only [wrapped, wrapper, onePassAll, hblock]
  rfl

-- Induction on the tree.  The element is seen by the second pass as it was seen by the first,
-- unless the first has wrapped it; then its wrapper is passed through.
mutual

/-- A pass for each of two languages comes to one pass for both. -/
lemma onePass_onePass (hattr : t.rawCodeAttribute ≠ Properties.className)
    (h : t.HasDistinctTags) (l m : String) (under : Bool) (n : Node) :
    (t.withLanguageClass m).onePass under ((t.withLanguageClass l).onePass under n) =
      t.wrapWhere (t.isEither l m) under n := by
  match n with
  | .root children =>
    rw [onePass, onePass, wrapWhere, onePassAll_onePassAll hattr h l m false children]
  | .element tag properties children =>
    have ih := onePassAll_onePassAll hattr h l m (t.isWrapper ⟨tag, properties, children⟩)
      children
    have hinner : (t.withLanguageClass m).inner
        ((t.withLanguageClass l).inner ⟨tag, properties, children⟩) =
          ⟨tag, properties, t.wrapAllWhere (t.isEither l m)
            (t.isWrapper ⟨tag, properties, children⟩) children⟩ := by
      have hstays : (t.withLanguageClass m).isWrapper
          ((t.withLanguageClass l).inner ⟨tag, properties, children⟩) =
            t.isWrapper ⟨tag, properties, children⟩ :=
        (t.withLanguageClass l).isWrapper_inner _
      rw [inner, hstays, ← ih]
      rfl
    change (t.withLanguageClass m).onePass under ((t.withLanguageClass l).onePass under
      (Element.node ⟨tag, properties, children⟩)) = _
    rw [wrapWhere, ← hinner]
    cases hfirst : (t.withLanguageClass l).isDue under ⟨tag, properties, children⟩ with
    | true =>
      have hwrapped := isDue_wrapped_withLanguageClass h l m under ⟨tag, properties, children⟩
      rw [onePass_of_isDue _ hfirst, not_and_isEither, hfirst, Bool.true_or, if_pos rfl]
      exact (onePass_of_not_isDue _ hwrapped).trans
        (congrArg Element.node (inner_wrapped_withLanguageClass hattr l m _))
    | false =>
      have hsees := isDue_inner_withLanguageClass h l m under ⟨tag, properties, children⟩
      rw [onePass_of_not_isDue _ hfirst, not_and_isEither, hfirst, Bool.false_or]
      cases hsecond : (t.withLanguageClass m).isDue under ⟨tag, properties, children⟩ with
      | true =>
        rw [onePass_of_isDue _ (hsees.trans hsecond), if_pos rfl, textContent_inner]
        rfl
      | false =>
        rw [onePass_of_not_isDue _ (hsees.trans hsecond), if_neg Bool.false_ne_true]
  | .text value => simp [onePass, wrapWhere]
  | .comment value => simp [onePass, wrapWhere]
  | .doctype => simp [onePass, wrapWhere]

/-- The same for several nodes. -/
lemma onePassAll_onePassAll (hattr : t.rawCodeAttribute ≠ Properties.className)
    (h : t.HasDistinctTags) (l m : String) (under : Bool) (nodes : List Node) :
    (t.withLanguageClass m).onePassAll under ((t.withLanguageClass l).onePassAll under nodes) =
      t.wrapAllWhere (t.isEither l m) under nodes := by
  match nodes with
  | [] => rw [onePassAll, onePassAll, wrapAllWhere]
  | n :: rest =>
    rw [onePassAll, onePassAll, wrapAllWhere, onePass_onePass hattr h l m under n,
      onePassAll_onePassAll hattr h l m under rest]

end

/-! ## The number of blocks -/

/-- What the second pass finds below a new wrapper is what it finds below the block in it. -/
lemma dueAt_wrapped_withLanguageClass (hattr : t.rawCodeAttribute ≠ Properties.className)
    (h : t.HasDistinctTags) (l m : String) (under : Bool) (e : Element) :
    (t.withLanguageClass m).dueAt under ((t.withLanguageClass l).wrapped e).node =
      (t.withLanguageClass m).dueAmong (t.isWrapper e)
        ((t.withLanguageClass l).inner e).children := by
  have hwrapper : (t.withLanguageClass m).isWrapper ((t.withLanguageClass l).wrapped e) = true :=
    isWrapper_wrapped (t := t.withLanguageClass l) hattr e
  have hstays : (t.withLanguageClass m).isWrapper ((t.withLanguageClass l).inner e) =
      t.isWrapper e :=
    (t.withLanguageClass l).isWrapper_inner e
  rw [dueAt_of_not_isDue _ (isDue_wrapped_withLanguageClass h l m under e), hwrapper]
  change (t.withLanguageClass m).dueAt true ((t.withLanguageClass l).inner e).node ++ [] = _
  rw [dueAt_of_not_isDue _ (isDue_true _ _), hstays, List.append_nil]

/-- An element is exposed unless its parent is a wrapper. -/
lemma countP_exposed (p : Element → Bool) (under : Bool) (e : Element) :
    (if under then [] else [e]).countP p = (!under && p e).toNat := by
  cases under with
  | true => rfl
  | false => cases h : p e <;> simp [h]

mutual

/-- The two passes wrap as many blocks as there are blocks of either language whose parent is
no wrapper. -/
lemma length_dueAt_add_length_dueAt (hattr : t.rawCodeAttribute ≠ Properties.className)
    (h : t.HasDistinctTags) (l m : String) (under : Bool) (n : Node) :
    ((t.withLanguageClass l).dueAt under n).length +
        ((t.withLanguageClass m).dueAt under
          ((t.withLanguageClass l).onePass under n)).length =
      (t.exposedAt under n).countP (t.isEither l m) := by
  match n with
  | .root children =>
    rw [onePass, dueAt, dueAt, exposedAt]
    exact length_dueAmong_add_length_dueAmong hattr h l m false children
  | .element tag properties children =>
    have ih := length_dueAmong_add_length_dueAmong hattr h l m
      (t.isWrapper ⟨tag, properties, children⟩) children
    have hstays : (t.withLanguageClass m).isWrapper
        ((t.withLanguageClass l).inner ⟨tag, properties, children⟩) =
          t.isWrapper ⟨tag, properties, children⟩ :=
      (t.withLanguageClass l).isWrapper_inner _
    change ((t.withLanguageClass l).dueAt under
      (Element.node ⟨tag, properties, children⟩)).length +
        ((t.withLanguageClass m).dueAt under ((t.withLanguageClass l).onePass under
          (Element.node ⟨tag, properties, children⟩))).length = _
    rw [exposedAt, List.countP_append, ← ih, countP_exposed, not_and_isEither]
    cases hfirst : (t.withLanguageClass l).isDue under ⟨tag, properties, children⟩ with
    | true =>
      -- The element counts for the first pass, and the second passes through its wrapper.
      have hsecond := dueAt_wrapped_withLanguageClass hattr h l m under
        ⟨tag, properties, children⟩
      rw [wrapped] at hsecond
      rw [dueAt_of_isDue _ hfirst, onePass_of_isDue _ hfirst, hsecond, List.length_cons,
        Bool.true_or, Bool.toNat_true]
      exact (Nat.add_right_comm _ _ _).trans (Nat.add_comm _ _)
    | false =>
      have hsees := isDue_inner_withLanguageClass h l m under ⟨tag, properties, children⟩
      rw [dueAt_of_not_isDue _ hfirst, onePass_of_not_isDue _ hfirst, Bool.false_or]
      cases hsecond : (t.withLanguageClass m).isDue under ⟨tag, properties, children⟩ with
      | true =>
        rw [dueAt_of_isDue _ (hsees.trans hsecond), hstays, List.length_cons, Bool.toNat_true]
        exact (Nat.add_assoc _ _ _).symm.trans (Nat.add_comm _ _)
      | false =>
        rw [dueAt_of_not_isDue _ (hsees.trans hsecond), hstays, Bool.toNat_false, Nat.zero_add]
        rfl
  | .text value => simp [onePass, dueAt, exposedAt]
  | .comment value => simp [onePass, dueAt, exposedAt]
  | .doctype => simp [onePass, dueAt, exposedAt]

/-- The same for several nodes. -/
lemma length_dueAmong_add_length_dueAmong
    (hattr : t.rawCodeAttribute ≠ Properties.className) (h : t.HasDistinctTags)
    (l m : String) (under : Bool) (nodes : List Node) :
    ((t.withLanguageClass l).dueAmong under nodes).length +
        ((t.withLanguageClass m).dueAmong under
          ((t.withLanguageClass l).onePassAll under nodes)).length =
      (t.exposedAmong under nodes).countP (t.isEither l m) := by
  match nodes with
  | [] => simp [onePassAll, dueAmong, exposedAmong]
  | n :: rest =>
    have hn := length_dueAt_add_length_dueAt hattr h l m under n
    have hrest := length_dueAmong_add_length_dueAmong hattr h l m under rest
    simp only [onePassAll, dueAmong, exposedAmong, List.length_append, List.countP_append]
    omega

end

/-- What becomes of a document in two passes. -/
lemma wrap_wrap_withLanguageClass (hattr : t.rawCodeAttribute ≠ Properties.className)
    (h : t.HasDistinctTags) (l m : String) (r : Root) :
    ((t.withLanguageClass m).wrap ((t.withLanguageClass l).wrap r).1).1 =
        ⟨t.wrapAllWhere (t.isEither l m) false r.children⟩ ∧
      ((t.withLanguageClass l).wrap r).2 +
          ((t.withLanguageClass m).wrap ((t.withLanguageClass l).wrap r).1).2 =
        (t.exposed r).countP (t.isEither l m) := by
  have hfirst := wrap_eq (t := t.withLanguageClass l) hattr r
  have hsecond := wrap_eq (t := t.withLanguageClass m) hattr ((t.withLanguageClass l).wrap r).1
  constructor
  · rw [hsecond, hfirst, onePassAll_onePassAll hattr h]
  · rw [hsecond, hfirst, exposed]
    exact length_dueAmong_add_length_dueAmong hattr h l m false r.children

end TwoPasses

/-! ## The main result -/

/-- **Passes for different languages commute.**  Let blocks, code elements and wrappers have
three different tags, and let the source of a block not take the place of the classes of its
wrapper.  Then a pass for each of two languages leaves the same document in either order:
every block of one of them or of both whose parent is no wrapper is wrapped, once, and
nothing else is.  In either order the numbers of the two passes add up to the number of these
blocks, and so many wrappers are new. -/
theorem wrap_languages_comm (hattr : t.rawCodeAttribute ≠ Properties.className)
    (h : t.HasDistinctTags) (l m : String) (r : Root) :
    let a := t.withLanguageClass l
    let b := t.withLanguageClass m
    (b.wrap (a.wrap r).1).1 = (a.wrap (b.wrap r).1).1 ∧
      (b.wrap (a.wrap r).1).1 = ⟨t.wrapAllWhere (t.isEither l m) false r.children⟩ ∧
      (a.wrap r).2 + (b.wrap (a.wrap r).1).2 = (t.exposed r).countP (t.isEither l m) ∧
      (b.wrap r).2 + (a.wrap (b.wrap r).1).2 = (t.exposed r).countP (t.isEither l m) ∧
      (b.wrap (a.wrap r).1).1.elements.countP t.isWrapper =
        r.elements.countP t.isWrapper + (t.exposed r).countP (t.isEither l m) := by
  intro a b
  obtain ⟨hab, hcountab⟩ := wrap_wrap_withLanguageClass hattr h l m r
  obtain ⟨hba, hcountba⟩ := wrap_wrap_withLanguageClass hattr h m l r
  rw [isEither_comm] at hba hcountba
  have hnew : (a.wrap r).1.elements.countP t.isWrapper =
      r.elements.countP t.isWrapper + (a.wrap r).2 :=
    countP_isWrapper_wrap (t := a) hattr r
  have hmore : (b.wrap (a.wrap r).1).1.elements.countP t.isWrapper =
      (a.wrap r).1.elements.countP t.isWrapper + (b.wrap (a.wrap r).1).2 :=
    countP_isWrapper_wrap (t := b) hattr _
  refine ⟨hab.trans hba.symm, hab, hcountab, hcountba, ?_⟩
  rw [hmore, hnew, Nat.add_assoc, hcountab]

/-- A block of one language in the code of a block of another, and a block of both. -/
def mixedBlocks : Root :=
  ⟨[((standard.withLanguageClass "language-dot").block {}
      [.text "A", (standard.block {} [.text "B"]).node]).node,
    .element "pre" {} [.element "code"
      (.ofList [("className", .list ["language-mermaid", "language-dot"])]) [.text "C"]]]⟩

/-- The block of both languages is wrapped by the pass that comes first. -/
theorem wrap_languages_comm_mixedBlocks :
    standard.rawCodeAttribute ≠ Properties.className ∧ standard.HasDistinctTags ∧
      let a := standard.withLanguageClass "language-mermaid"
      let b := standard.withLanguageClass "language-dot"
      (b.wrap (a.wrap mixedBlocks).1).1 = (a.wrap (b.wrap mixedBlocks).1).1 ∧
        ((a.wrap mixedBlocks).2 = 2 ∧ (b.wrap mixedBlocks).2 = 2) ∧
        (a.wrap mixedBlocks).2 + (b.wrap (a.wrap mixedBlocks).1).2 = 3 ∧
        (b.wrap mixedBlocks).2 + (a.wrap (b.wrap mixedBlocks).1).2 = 3 ∧
        (b.wrap (a.wrap mixedBlocks).1).1.elements.countP standard.isWrapper = 3 := by
  have hattr : standard.rawCodeAttribute ≠ Properties.className := by decide
  have htags : standard.HasDistinctTags := ⟨by decide, by decide, by decide⟩
  obtain ⟨hcomm, -, hab, hba, hnew⟩ :=
    wrap_languages_comm standard hattr htags "language-mermaid" "language-dot" mixedBlocks
  exact ⟨hattr, htags, hcomm, ⟨rfl, rfl⟩, hab.trans rfl, hba.trans rfl, hnew.trans rfl⟩

end TargetBlock

end FencedCode
