import FencedCode.Proofs.Stability
import FencedCode.Settings.Basic

/-!
# Accepted settings

The checks of the settings go through the names one after the other and stop at the first
fault.  They accept the settings exactly if all names are non-empty and free of blanks and
the source attribute is not the class, `validate_eq_ok_iff`.  Nothing is checked about two
names together, and so the tags may coincide.  The main result,
`wrap_twice_iff_of_validate`, says for which accepted settings a second pass changes nothing.
-/

namespace FencedCode

namespace Settings

/-! ## What is accepted -/

/-- A text that can be a name: it is non-empty and free of blanks. -/
def IsName (name : String) : Prop :=
  name ≠ "" ∧ ∀ c ∈ name.toList, Text.isBlank c = false

/-- What the checks ask of the settings. -/
structure IsAccepted (s : Settings) : Prop where
  language : IsName s.target.language
  blockTag : IsName s.target.blockTag
  codeTag : IsName s.target.codeTag
  wrapperTag : IsName s.wrapper.tag
  markerClass : IsName s.wrapper.markerClass
  rawCodeAttribute : IsName s.wrapper.rawCodeAttribute
  rawCodeAttribute_ne_class : s.wrapper.rawCodeAttribute ≠ "class"
  rawCodeAttribute_ne_className : s.wrapper.rawCodeAttribute ≠ Properties.className
  downstream : ∀ name ∈ s.downstream, IsName name

/-- Two checks in a row pass if both pass. -/
lemma check_bind_eq_ok_iff {x y : Except SettingsFault Unit} :
    (x >>= fun _ => y) = .ok () ↔ x = .ok () ∧ y = .ok () := by
  cases x with
  | error fault => simp [bind, Except.bind]
  | ok => simp [bind, Except.bind]

lemma checkName_eq_ok_iff {name : String} {key : SettingsKey} :
    checkName name key = .ok () ↔ IsName name := by
  have hempty : name.isEmpty = true ↔ name = "" := String.isEmpty_iff
  have hblank : name.toList.any Text.isBlank = true ↔
      ¬∀ c ∈ name.toList, Text.isBlank c = false := by simp
  rw [checkName]
  split
  · rename_i h
    exact iff_of_false (by simp) fun hname => hname.1 (hempty.1 h)
  · rename_i hne
    split
    · rename_i h
      exact iff_of_false (by simp) fun hname => hblank.1 h hname.2
    · rename_i h
      exact iff_of_true rfl ⟨mt hempty.2 hne, not_not.1 (mt hblank.2 h)⟩

lemma checkNames_eq_ok_iff {key : SettingsKey} {names : List String} :
    checkNames key names = .ok () ↔ ∀ name ∈ names, IsName name := by
  induction names with
  | nil => simp [checkNames]
  | cons name rest ih =>
    rw [checkNames, check_bind_eq_ok_iff, checkName_eq_ok_iff, ih, List.forall_mem_cons]

lemma checkAttribute_eq_ok_iff {name : String} :
    checkAttribute name = .ok () ↔ name ≠ "class" ∧ name ≠ Properties.className := by
  rw [checkAttribute, Properties.className, ← not_or]
  split
  · rename_i h
    simp [h]
  · rename_i h
    simp [h]

/-- The checks pass exactly if every name is one and the source attribute is not the
class. -/
lemma validate_eq_ok_iff {s : Settings} : s.validate = .ok () ↔ s.IsAccepted := by
  simp only [validate, check_bind_eq_ok_iff, checkName_eq_ok_iff, checkNames_eq_ok_iff,
    checkAttribute_eq_ok_iff]
  constructor
  · rintro ⟨h1, h2, h3, h4, h5, h6, ⟨h7, h8⟩, h9⟩
    exact ⟨h1, h2, h3, h4, h5, h6, h7, h8, h9⟩
  · rintro ⟨h1, h2, h3, h4, h5, h6, h7, h8, h9⟩
    exact ⟨h1, h2, h3, h4, h5, h6, ⟨h7, h8⟩, h9⟩

/-! ## Two passes -/

/-- A pass that wraps nothing has found nothing. -/
lemma find_eq_nil_of_wrap_eq_self {t : TargetBlock}
    (hattr : t.rawCodeAttribute ≠ Properties.className) {r : Root}
    (h : t.wrap r = (r, 0)) : t.find r = [] := by
  have hcount : (t.dueAmong false r.children).length = 0 := by
    rw [TargetBlock.wrap_eq hattr] at h
    exact congrArg Prod.snd h
  rw [TargetBlock.find_eq_nil_iff]
  exact List.length_eq_zero_iff.1 hcount

/-- **Wrapping twice under accepted settings.**  A second pass with the stage of accepted
settings changes nothing, whatever the document, exactly if neither blocks, code elements
and wrappers all have the same tag, nor wrappers have the tag and the class of the code
elements. -/
theorem wrap_twice_iff_of_validate (s : Settings) (h : s.validate = .ok ()) :
    (∀ r : Root, s.blockWrapper.wrap (s.blockWrapper.wrap r).1 =
        ((s.blockWrapper.wrap r).1, 0)) ↔
      ¬(s.target.blockTag = s.target.codeTag ∧ s.target.codeTag = s.wrapper.tag) ∧
        ¬(s.wrapper.tag = s.target.codeTag ∧ s.languageClass = s.wrapper.markerClass) := by
  have hattr : s.targetBlock.rawCodeAttribute ≠ Properties.className :=
    (validate_eq_ok_iff.1 h).rawCodeAttribute_ne_className
  constructor
  · intro htwice
    have hnothing : ∀ r : Root, s.targetBlock.find (s.targetBlock.wrap r).1 = [] :=
      fun r => find_eq_nil_of_wrap_eq_self hattr (htwice r)
    exact ⟨fun htags => TargetBlock.find_wrap_of_same_tags hattr htags (hnothing _),
      fun hcode => TargetBlock.find_wrap_of_same_class hattr hcode (hnothing _)⟩
  · rintro ⟨htags, hcode⟩ r
    exact (TargetBlock.wrap_wrap_of_tags hattr htags hcode r).1

/-- The usual settings are accepted, and under them a second pass changes nothing. -/
theorem wrap_twice_default :
    ({} : Settings).validate = .ok () ∧
      ∀ r : Root, ({} : Settings).blockWrapper.wrap (({} : Settings).blockWrapper.wrap r).1 =
        ((({} : Settings).blockWrapper.wrap r).1, 0) := by
  have hvalid : ({} : Settings).validate = .ok () := rfl
  exact ⟨hvalid, (wrap_twice_iff_of_validate {} hvalid).2 (by decide)⟩

/-! ## Accepted settings that are not stable -/

/-- Settings under which blocks, code elements and wrappers have the same tag. -/
def sameTags : Settings :=
  { target := { blockTag := "div", codeTag := "div" } }

/-- A document with a block that has the language class itself. -/
def classedBlock : Root :=
  ⟨[(sameTags.targetBlock.block sameTags.targetBlock.codeProperties [.text "A"]).node]⟩

/-- The settings are accepted, and yet a second pass wraps the wrapper that the first pass
put in: its first child, the block, passes for a code element. -/
theorem sameTags_wrap_twice :
    sameTags.validate = .ok () ∧
      (sameTags.blockWrapper.wrap (sameTags.blockWrapper.wrap classedBlock).1).2 = 1 ∧
      ¬∀ s : Settings, s.validate = .ok () → ∀ r : Root,
        s.blockWrapper.wrap (s.blockWrapper.wrap r).1 = ((s.blockWrapper.wrap r).1, 0) := by
  have hvalid : sameTags.validate = .ok () := rfl
  have hcount :
      (sameTags.blockWrapper.wrap (sameTags.blockWrapper.wrap classedBlock).1).2 = 1 := rfl
  refine ⟨hvalid, hcount, fun h => ?_⟩
  rw [h sameTags hvalid classedBlock] at hcount
  exact Nat.zero_ne_one hcount

end Settings

end FencedCode
