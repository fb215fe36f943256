import FencedCode.Proofs.AcceptedSettings
import FencedCode.Proofs.Conservation
import FencedCode.Proofs.Markup.Reader

/-!
# The start tag of a wrapper

A wrapper has two properties, the classes and the source, and its start tag has an attribute
for each.  The checks of the settings compare the name of the source property with two
spellings of the class, whereas the name of an attribute is put in lower case.  So the two
attributes have different names unless the name of the source property is `class` in other
letters, `attributeName_eq_class_iff`, and such a name passes the checks.  The main result is
`wrapperTag_of_validate`.
-/

namespace FencedCode

namespace Markup

/-! ## Names that become `class` -/

/-- The rule for names that start with `data` gives no other name than `class`. -/
lemma loweredName_eq_class_iff (cs : List Char) :
    loweredName cs = "class".toList ↔ cs.map Char.toLower = "class".toList := by
  rw [loweredName.eq_def]
  split
  · rename_i c rest
    have hdata : ∀ cs : List Char, 'd' :: cs ≠ "class".toList :=
      fun cs h => absurd (List.cons.inj h).1 (by decide)
    split
    · exact iff_of_false (hdata _) (hdata _)
    · rfl
  · rfl

/-- A property becomes the attribute `class` if it is the class, or if its name is that word
in capital or small letters. -/
lemma attributeName_eq_class_iff (property : String) :
    attributeName property = "class" ↔
      property = Properties.className ∨ property.toLower = "class" := by
  have hlower : property.toLower = property.map Char.toLower := rfl
  have hown : ∀ p ∈ ownNames, p.2 = "class" ↔
      p.1 = Properties.className ∨ p.1.toList.map Char.toLower = "class".toList := by decide
  rw [hlower, ← @String.toList_inj (property.map _), String.toList_map]
  rcases attributeName_cases property with hmem | ⟨hnot, hgeneral⟩
  · exact hown _ hmem
  · have hclass : property ≠ Properties.className := by
      rintro rfl
      exact hnot (by decide)
    rw [hgeneral, ← String.toList_inj, String.toList_ofList, loweredName_eq_class_iff]
    exact (or_iff_right hclass).symm

end Markup

namespace TargetBlock

open Markup

variable {t : TargetBlock}

/-! ## The attributes of a wrapper -/

/-- The attributes of a wrapper are the class and the source. -/
lemma attributes_wrapperProperties (hattr : t.rawCodeAttribute ≠ Properties.className)
    (source : String) :
    (t.wrapperProperties source).attributes.Perm
      [⟨"class", some t.markerClass⟩, ⟨attributeName t.rawCodeAttribute, some source⟩] :=
  (entries_wrapperProperties hattr source).filterMap _

lemma nodup_names_wrapperProperties (hattr : t.rawCodeAttribute ≠ Properties.className)
    (source : String) :
    ((t.wrapperProperties source).attributes.map Attribute.name).Nodup ↔
      t.rawCodeAttribute.toLower ≠ "class" := by
  have hnames := ((attributes_wrapperProperties hattr source).map Attribute.name).nodup_iff
  have hclass := attributeName_eq_class_iff t.rawCodeAttribute
  rw [or_iff_right hattr] at hclass
  rw [hnames, Ne, ← hclass]
  simp [eq_comm]

/-- The HTML of a wrapper starts with its start tag. -/
lemma exists_toHtml_wrapper (t : TargetBlock) (e : Element) (source : String) :
    ∃ rest, (t.wrapper e source).node.toHtml.toList =
      (Token.opening t.wrapperTag (t.wrapperProperties source).attributes).chars ++ rest := by
  rw [Node.toHtml, String.toList_ofList, Element.node, Node.html]
  exact ⟨_, rfl⟩

/-- The start tag of a wrapper can be read if its names can stand in tags. -/
lemma isReadable_startTag (hattr : t.rawCodeAttribute ≠ Properties.className)
    (htag : IsName t.wrapperTag) (hname : IsName t.rawCodeAttribute) (source : String) :
    (Token.opening t.wrapperTag (t.wrapperProperties source).attributes).IsReadable := by
  refine ⟨htag, fun a ha => ?_⟩
  have hmem := (attributes_wrapperProperties hattr source).subset ha
  rcases List.mem_pair.1 hmem with rfl | rfl
  · exact (by decide : IsName "class")
  · exact hname.attributeName

end TargetBlock

namespace Settings

open Markup

/-! ## The main result -/

/-- **The start tag of a wrapper under accepted settings** has two attributes: `class`, which
holds the marker class, and the one of the source property, which holds the source.  Their
names differ exactly if the name of that property is not `class` in capital or small letters.
If the names in the tag can stand in tags, a reader finds these two attributes. -/
theorem wrapperTag_of_validate (s : Settings) (h : s.validate = .ok ()) (e : Element)
    (source : String) :
    ∃ attributes rest,
      (s.targetBlock.wrapper e source).node.toHtml.toList =
          (Token.opening s.wrapper.tag attributes).chars ++ rest ∧
        attributes.Perm [⟨"class", some s.wrapper.markerClass⟩,
          ⟨attributeName s.wrapper.rawCodeAttribute, some source⟩] ∧
        ((attributes.map Attribute.name).Nodup ↔
          s.wrapper.rawCodeAttribute.toLower ≠ "class") ∧
        (Markup.IsName s.wrapper.tag → Markup.IsName s.wrapper.rawCodeAttribute →
          readToken (s.targetBlock.wrapper e source).node.toHtml.toList =
            some (.opening s.wrapper.tag attributes, rest)) := by
  have hattr : s.targetBlock.rawCodeAttribute ≠ Properties.className :=
    (validate_eq_ok_iff.1 h).rawCodeAttribute_ne_className
  obtain ⟨rest, hhtml⟩ := s.targetBlock.exists_toHtml_wrapper e source
  refine ⟨(s.targetBlock.wrapperProperties source).attributes, rest, hhtml,
    TargetBlock.attributes_wrapperProperties hattr source,
    TargetBlock.nodup_names_wrapperProperties hattr source, fun htag hname => ?_⟩
  rw [hhtml]
  exact readToken_chars (TargetBlock.isReadable_startTag hattr htag hname source) nofun

/-- The usual settings are accepted, and the tags of their wrappers have two attributes of
different names. -/
theorem wrapperTag_default :
    ({} : Settings).validate = .ok () ∧
      ∃ attributes rest,
        (({} : Settings).targetBlock.wrapper (TargetBlock.standard.block {} [])
            "\"A\" --> B").node.toHtml.toList =
          (Token.opening "div" attributes).chars ++ rest ∧
        attributes.Perm [⟨"class", some "mermaid-wrapper"⟩,
          ⟨"data-mermaid-code", some "\"A\" --> B"⟩] ∧
        (attributes.map Attribute.name).Nodup := by
  have hvalid : ({} : Settings).validate = .ok () := rfl
  obtain ⟨attributes, rest, hhtml, hperm, hnames, -⟩ := wrapperTag_of_validate {} hvalid
    (TargetBlock.standard.block {} []) "\"A\" --> B"
  exact ⟨hvalid, attributes, rest, hhtml, hperm, hnames.2 (by decide +kernel)⟩

/-! ## Accepted settings with a collision -/

/-- Settings under which the source property is the class with a capital letter. -/
def capitalClass : Settings :=
  { wrapper := { rawCodeAttribute := "Class" } }

/-- The settings are accepted, and yet the start tag of a wrapper has the attribute `class`
twice. -/
theorem capitalClass_collides :
    capitalClass.validate = .ok () ∧
      (capitalClass.targetBlock.wrapper (TargetBlock.standard.block {} [.text "A"])
        "A").node.toHtml =
          "<div class=\"A\" class=\"mermaid-wrapper\">" ++
            "<pre><code class=\"language-mermaid\">A</code></pre></div>" ∧
      ¬∀ s : Settings, s.validate = .ok () → ∀ source : String,
        ((s.targetBlock.wrapperProperties source).attributes.map Attribute.name).Nodup := by
  have hvalid : capitalClass.validate = .ok () := rfl
  have hnames : ¬((capitalClass.targetBlock.wrapperProperties "A").attributes.map
      Attribute.name).Nodup := by
    decide +kernel
  exact ⟨hvalid, by decide +kernel, fun h => hnames (h capitalClass hvalid "A")⟩

end Settings

end FencedCode
