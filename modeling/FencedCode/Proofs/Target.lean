import FencedCode.Block.Target
import FencedCode.Proofs.NameMap

/-!
# The shapes of target blocks and wrappers

Whether an element is a target block depends on its tag and its first child alone, and
whether it is a wrapper on its tag, its properties and the number of its children.  A
wrapper that is put around an element is recognised as one, unless its source takes the
place of its classes, and it is itself a target block only if the tags of blocks, code
elements and wrappers are all the same.
-/

namespace FencedCode

namespace Properties

/-- A scalar in the place of the class tokens is no token. -/
lemma hasClass_eq_false {p : Properties} {v : PropertyValue} (h : p.get? className = some v)
    (hv : v.isScalar = true) (token : String) : p.hasClass token = false := by
  have hnone := (PropertyValue.isScalar_iff v).1 hv
  simp [hasClass, classTokens, h, hnone]

end Properties

namespace TargetBlock

variable (t : TargetBlock)

/-- Blocks, code elements and wrappers have three different tags. -/
structure HasDistinctTags : Prop where
  block_ne_code : t.blockTag ≠ t.codeTag
  wrapper_ne_code : t.wrapperTag ≠ t.codeTag
  wrapper_ne_block : t.wrapperTag ≠ t.blockTag

/-! ## Target blocks -/

/-- Whether a node is an element that makes a block a target block when it is its first
child. -/
def isCode : Node → Bool
  | .element tag properties _ =>
    tag = t.codeTag && Properties.hasClass properties t.languageClass
  | _ => false

/-- An element is a target block by its tag and its first child; scalar classes need no
rule of their own. -/
lemma isTarget_eq (e : Element) :
    t.isTarget e = (decide (e.tag = t.blockTag) && e.children.head?.any t.isCode) := by
  obtain ⟨tag, properties, children⟩ := e
  rw [isTarget, code?]
  by_cases htag : tag = t.blockTag
  · match children with
    | [] => simp
    | .root _ :: _ => simp [isCode]
    | .text _ :: _ => simp [isCode]
    | .comment _ :: _ => simp [isCode]
    | .doctype :: _ => simp [isCode]
    | .element codeTag codeProperties _ :: _ =>
      by_cases hcode : codeTag = t.codeTag
      · cases hclass : codeProperties.get? Properties.className with
        | none => simp [htag, hcode, isCode, hasScalarClass, hclass]
        | some v =>
          cases hv : v.isScalar with
          | false => simp [htag, hcode, isCode, hasScalarClass, hclass, hv]
          | true =>
            simp [htag, hcode, isCode, hasScalarClass, hclass, hv,
              Properties.hasClass_eq_false hclass hv]
      · simp [htag, hcode, isCode]
  · simp [htag]

lemma tag_of_isTarget {e : Element} (h : t.isTarget e = true) : e.tag = t.blockTag := by
  rw [isTarget_eq, Bool.and_eq_true] at h
  simpa using h.1

/-! ## A plain block -/

/-- The properties of a code element that has the language class and nothing else. -/
def codeProperties : Properties :=
  NameMap.insert {} Properties.className (.list [t.languageClass])

/-- A target block with given properties and given contents of its code element. -/
def block (properties : Properties) (contents : List Node) : Element :=
  ⟨t.blockTag, properties, [.element t.codeTag t.codeProperties contents]⟩

lemma hasClass_codeProperties (token : String) :
    t.codeProperties.hasClass token = decide (token = t.languageClass) := by
  rw [Bool.eq_iff_iff]
  simp [Properties.hasClass, Properties.classTokens, codeProperties, PropertyValue.tokens?]

lemma isTarget_block (properties : Properties) (contents : List Node) :
    t.isTarget (t.block properties contents) = true := by
  simp [isTarget_eq, block, isCode, hasClass_codeProperties]

/-! ## Wrappers -/

/-- Whether an element is a wrapper depends on its children only by their number. -/
lemma isWrapper_congr {tag : String} {properties : Properties} {xs ys : List Node}
    (h : xs.length = ys.length) :
    t.isWrapper ⟨tag, properties, xs⟩ = t.isWrapper ⟨tag, properties, ys⟩ := by
  simp [isWrapper, h]

variable {t}

lemma get?_className_wrapperProperties (hattr : t.rawCodeAttribute ≠ Properties.className)
    (source : String) :
    (t.wrapperProperties source).get? Properties.className = some (.list [t.markerClass]) := by
  rw [wrapperProperties, NameMap.get?_insert_of_ne _ _ hattr, NameMap.get?_insert_self]

lemma get?_rawCodeAttribute_wrapperProperties (source : String) :
    (t.wrapperProperties source).get? t.rawCodeAttribute = some (.text source) :=
  NameMap.get?_insert_self _ _ _

/-- The only class of a wrapper is the marker class. -/
lemma hasClass_wrapperProperties (hattr : t.rawCodeAttribute ≠ Properties.className)
    (source token : String) :
    (t.wrapperProperties source).hasClass token = decide (token = t.markerClass) := by
  rw [Bool.eq_iff_iff]
  simp [Properties.hasClass, Properties.classTokens, get?_className_wrapperProperties hattr,
    PropertyValue.tokens?]

/-- A wrapper that is put around an element is recognised as one. -/
lemma isWrapper_wrapper (hattr : t.rawCodeAttribute ≠ Properties.className) (e : Element)
    (source : String) : t.isWrapper (t.wrapper e source) = true := by
  simp [isWrapper, wrapper, hasClass_wrapperProperties hattr,
    get?_rawCodeAttribute_wrapperProperties, PropertyValue.asText?]

/-- A wrapper can be the code element of a block only if it has the tag and the class. -/
lemma isCode_wrapper (hattr : t.rawCodeAttribute ≠ Properties.className) (e : Element)
    (source : String) :
    t.isCode (t.wrapper e source).node =
      (decide (t.wrapperTag = t.codeTag) && decide (t.languageClass = t.markerClass)) := by
  simp [isCode, wrapper, Element.node, hasClass_wrapperProperties hattr]

/-- A wrapper around a block can be a target block only if all tags are the same. -/
lemma tags_of_isTarget_wrapper {e : Element} {source : String} (he : e.tag = t.blockTag)
    (h : t.isTarget (t.wrapper e source) = true) :
    t.blockTag = t.codeTag ∧ t.codeTag = t.wrapperTag := by
  rw [isTarget_eq] at h
  simp only [wrapper, Element.node, List.head?_cons, Option.any_some, isCode,
    Bool.and_eq_true, decide_eq_true_eq] at h
  obtain ⟨hwrapper, hcode, -⟩ := h
  have hblock : t.blockTag = t.codeTag := he.symm.trans hcode
  have hsame : t.wrapperTag = t.blockTag := of_decide_eq_true hwrapper
  exact ⟨hblock, hblock.symm.trans hsame.symm⟩

/-- A wrapper is no block of any kind that has another tag. -/
lemma isTarget_wrapper_of_ne {u : TargetBlock} (h : t.wrapperTag ≠ u.blockTag) (e : Element)
    (source : String) : u.isTarget (t.wrapper e source) = false := by
  rw [Bool.eq_false_iff]
  intro htarget
  exact h (u.tag_of_isTarget htarget)

end TargetBlock

end FencedCode
