import FencedCode.Proofs.Finding
import FencedCode.Proofs.PropertyMaps
import FencedCode.Proofs.Text.Words

/-!
# The two forms of class tokens

A document can give the classes of an element as one text or as a list.  `withClassLists`
turns every text into the list of its words and leaves everything else as it is.  Target
blocks and wrappers are recognised by their tokens, and the source of a wrapper is not among
its classes, so the change is overlooked by the walk, `overlooks_withClassList`.  What is
overlooked element by element is overlooked by the whole walk: it goes the same way in both
documents, and the change can be made before or after it, `onePass_mapProperties`.  The main
result is `wrap_withClassLists`.
-/

namespace FencedCode

/-! ## Class tokens as lists -/

/-- The parts of a text between ASCII blanks, as a list; other values stay. -/
def PropertyValue.asList : PropertyValue → PropertyValue
  | text s =>
    list (((s.toList.splitOnP Text.isAsciiBlank).filter fun w => !w.isEmpty).map String.ofList)
  | v => v

/-- The properties with the class tokens as a list, if they are a text. -/
def Properties.withClassList (p : Properties) : Properties :=
  match p.get? className with
  | some v => p.insert className v.asList
  | none => p

/-- The document with all class tokens that are a text as lists. -/
def Root.withClassLists (r : Root) : Root :=
  r.mapProperties Properties.withClassList

/-- Making a list of a value does not change its tokens. -/
lemma PropertyValue.tokens?_asList (v : PropertyValue) : v.asList.tokens? = v.tokens? := by
  cases v with
  | text s => simp [asList, tokens?, Text.words_eq_parts, Text.parts]
  | flag on => rfl
  | number x => rfl
  | list items => rfl

namespace Properties

lemma get?_className_withClassList (p : Properties) :
    p.withClassList.get? className = (p.get? className).map PropertyValue.asList := by
  rw [withClassList]
  cases h : p.get? className with
  | none => simpa using h
  | some v => simp

lemma get?_withClassList_of_ne (p : Properties) {name : String} (h : className ≠ name) :
    p.withClassList.get? name = p.get? name := by
  rw [withClassList]
  split
  · exact NameMap.get?_insert_of_ne _ _ h
  · rfl

lemma hasClass_withClassList (p : Properties) (token : String) :
    p.withClassList.hasClass token = p.hasClass token := by
  rw [hasClass, hasClass, classTokens, classTokens, get?_className_withClassList]
  cases p.get? className with
  | none => rfl
  | some v => simp [PropertyValue.tokens?_asList]

end Properties

/-! ## Changing the properties at and below an element -/

/-- Changes the properties of an element and of every element below it. -/
def Element.mapAllProperties (f : Properties → Properties) (e : Element) : Element :=
  ⟨e.tag, f e.properties, Node.mapPropertiesOfAll f e.children⟩

namespace Node

variable (f : Properties → Properties)

lemma mapPropertiesOfAll_eq_map (nodes : List Node) :
    mapPropertiesOfAll f nodes = nodes.map (mapProperties f) := by
  induction nodes with
  | nil => simp [mapPropertiesOfAll]
  | cons n rest ih => simp [mapPropertiesOfAll, ih]

@[simp] lemma mapProperties_node (e : Element) :
    e.node.mapProperties f = (e.mapAllProperties f).node := by
  simp [Element.node, mapProperties, Element.mapAllProperties]

mutual

lemma textContent_mapProperties (n : Node) :
    (n.mapProperties f).textContent = n.textContent := by
  match n with
  | root children => simp [mapProperties, textContent, textOfAll_mapPropertiesOfAll children]
  | element tag properties children =>
    simp [mapProperties, textContent, textOfAll_mapPropertiesOfAll children]
  | text value => simp [mapProperties]
  | comment value => simp [mapProperties]
  | doctype => simp [mapProperties]

lemma textOfAll_mapPropertiesOfAll (nodes : List Node) :
    textOfAll (mapPropertiesOfAll f nodes) = textOfAll nodes := by
  match nodes with
  | [] => simp [mapPropertiesOfAll]
  | n :: rest =>
    simp [mapPropertiesOfAll, textOfAll, textContent_mapProperties n,
      textOfAll_mapPropertiesOfAll rest]

end

end Node

@[simp] lemma Element.textContent_mapAllProperties (f : Properties → Properties)
    (e : Element) : (e.mapAllProperties f).textContent = e.textContent :=
  Node.textOfAll_mapPropertiesOfAll f e.children

namespace TargetBlock

variable (t : TargetBlock)

/-! ## Changes that are overlooked -/

/-- A change of properties that the walk does not notice: it keeps the class tokens and the
source, and it leaves the properties of new wrappers as they are. -/
structure Overlooks (f : Properties → Properties) : Prop where
  hasClass : ∀ p token, (f p).hasClass token = p.hasClass token
  source : ∀ p, (f p).get? t.rawCodeAttribute = p.get? t.rawCodeAttribute
  wrapperProperties : ∀ source, f (t.wrapperProperties source) = t.wrapperProperties source

variable {t}

lemma overlooks_withClassList (hattr : t.rawCodeAttribute ≠ Properties.className) :
    t.Overlooks Properties.withClassList where
  hasClass := Properties.hasClass_withClassList
  source p := p.get?_withClassList_of_ne hattr.symm
  wrapperProperties source := by
    -- The classes of a new wrapper are a list already, and inserting them again is idle.
    have hclass := get?_className_wrapperProperties hattr source
    rw [Properties.withClassList, hclass]
    exact NameMap.insert_eq_self hclass

section Overlooked

variable {f : Properties → Properties}

lemma isWrapper_mapAllProperties (h : t.Overlooks f) (e : Element) :
    t.isWrapper (e.mapAllProperties f) = t.isWrapper e := by
  simp [isWrapper, Element.mapAllProperties, h.hasClass, h.source,
    Node.mapPropertiesOfAll_eq_map]

lemma isCode_mapProperties (h : t.Overlooks f) (n : Node) :
    t.isCode (n.mapProperties f) = t.isCode n := by
  cases n with
  | element tag properties children => simp [Node.mapProperties, isCode, h.hasClass]
  | root children => simp [Node.mapProperties, isCode]
  | text value => simp [Node.mapProperties]
  | comment value => simp [Node.mapProperties]
  | doctype => simp [Node.mapProperties]

lemma isTarget_mapAllProperties (h : t.Overlooks f) (e : Element) :
    t.isTarget (e.mapAllProperties f) = t.isTarget e := by
  rw [isTarget_eq, isTarget_eq, Element.mapAllProperties, Node.mapPropertiesOfAll_eq_map,
    List.head?_map]
  cases e.children.head? with
  | none => rfl
  | some n => simp [isCode_mapProperties h]

lemma isDue_mapAllProperties (h : t.Overlooks f) (under : Bool) (e : Element) :
    t.isDue under (e.mapAllProperties f) = t.isDue under e := by
  rw [isDue, isDue, isTarget_mapAllProperties h]

lemma wrapper_mapAllProperties (h : t.Overlooks f) (e : Element) (source : String) :
    t.wrapper (e.mapAllProperties f) source = (t.wrapper e source).mapAllProperties f := by
  simp [wrapper, Element.mapAllProperties, Node.mapPropertiesOfAll, h.wrapperProperties,
    Element.node, Node.mapProperties]

-- Induction on the tree.  An element and its changed form are both wrappers or both not, so
-- the same flag goes down in both trees, and both are due or both not.
mutual

/-- A change that is overlooked can be made before or after wrapping. -/
lemma onePass_mapProperties (h : t.Overlooks f) (under : Bool) (n : Node) :
    t.onePass under (n.mapProperties f) = (t.onePass under n).mapProperties f := by
  match n with
  | .root children =>
    simp [Node.mapProperties, onePass, onePassAll_mapPropertiesOfAll h false children]
  | .element tag properties children =>
    have hinner : t.inner (Element.mapAllProperties f ⟨tag, properties, children⟩) =
        (t.inner ⟨tag, properties, children⟩).mapAllProperties f := by
      have ih := onePassAll_mapPropertiesOfAll h (t.isWrapper ⟨tag, properties, children⟩) children
      rw [inner, isWrapper_mapAllProperties h]
      simp [Element.mapAllProperties, inner, ih]
    have hsame := isDue_mapAllProperties h under ⟨tag, properties, children⟩
    show t.onePass under ((Element.node ⟨tag, properties, children⟩).mapProperties f) =
      (t.onePass under (Element.node ⟨tag, properties, children⟩)).mapProperties f
    rw [Node.mapProperties_node]
    cases hdue : t.isDue under ⟨tag, properties, children⟩ with
    | true =>
      rw [t.onePass_of_isDue (hsame.trans hdue), t.onePass_of_isDue hdue, hinner,
        wrapper_mapAllProperties h, Element.textContent_mapAllProperties, Node.mapProperties_node]
    | false =>
      rw [t.onePass_of_not_isDue (hsame.trans hdue), t.onePass_of_not_isDue hdue, hinner,
        Node.mapProperties_node]
  | .text value => simp [Node.mapProperties, onePass]
  | .comment value => simp [Node.mapProperties, onePass]
  | .doctype => simp [Node.mapProperties, onePass]

/-- The same for several nodes. -/
lemma onePassAll_mapPropertiesOfAll (h : t.Overlooks f) (under : Bool) (nodes : List Node) :
    t.onePassAll under (Node.mapPropertiesOfAll f nodes) =
      Node.mapPropertiesOfAll f (t.onePassAll under nodes) := by
  match nodes with
  | [] => simp [Node.mapPropertiesOfAll, onePassAll]
  | n :: rest =>
    simp [Node.mapPropertiesOfAll, onePassAll, onePass_mapProperties h under n,
      onePassAll_mapPropertiesOfAll h under rest]

end

mutual

/-- The elements that are to be wrapped are the same, each with the change made. -/
lemma dueAt_mapProperties (h : t.Overlooks f) (under : Bool) (n : Node) :
    t.dueAt under (n.mapProperties f) =
      (t.dueAt under n).map (Element.mapAllProperties f) := by
  match n with
  | .root children =>
    simp [Node.mapProperties, dueAt, dueAmong_mapPropertiesOfAll h false children]
  | .element tag properties children =>
    have ih := dueAmong_mapPropertiesOfAll h (t.isWrapper ⟨tag, properties, children⟩) children
    have hwrapper := isWrapper_mapAllProperties h ⟨tag, properties, children⟩
    have hsame := isDue_mapAllProperties h under ⟨tag, properties, children⟩
    simp only [Element.mapAllProperties] at hwrapper hsame
    rw [Node.mapProperties, dueAt, dueAt, hwrapper, hsame, ih]
    cases hdue : t.isDue under ⟨tag, properties, children⟩ with
    | true => simp [Element.mapAllProperties]
    | false => simp
  | .text value => simp [Node.mapProperties, dueAt]
  | .comment value => simp [Node.mapProperties, dueAt]
  | .doctype => simp [Node.mapProperties, dueAt]

/-- The same for several nodes. -/
lemma dueAmong_mapPropertiesOfAll (h : t.Overlooks f) (under : Bool) (nodes : List Node) :
    t.dueAmong under (Node.mapPropertiesOfAll f nodes) =
      (t.dueAmong under nodes).map (Element.mapAllProperties f) := by
  match nodes with
  | [] => simp [Node.mapPropertiesOfAll, dueAmong]
  | n :: rest =>
    simp [Node.mapPropertiesOfAll, dueAmong, dueAt_mapProperties h under n,
      dueAmong_mapPropertiesOfAll h under rest]

end

/-- The same blocks are found. -/
lemma find_mapProperties (h : t.Overlooks f) (r : Root) :
    t.find (r.mapProperties f) = t.find r := by
  have hsource : Element.textContent ∘ Element.mapAllProperties f = Element.textContent :=
    funext fun e => e.textContent_mapAllProperties f
  rw [find_eq, find_eq, Root.mapProperties, dueAmong_mapPropertiesOfAll h, List.map_map, hsource]

end Overlooked

variable (t)

/-! ## The main result -/

/-- **The form of class tokens does not matter.**  Let the source of a block not take the
place of the classes of its wrapper.  With all class tokens as lists the same blocks are
found, as many are wrapped, and the result is the one for the document as it is, with all
class tokens as lists.  Every element is a target block, and a wrapper, in both forms or in
neither. -/
theorem wrap_withClassLists (hattr : t.rawCodeAttribute ≠ Properties.className) (r : Root) :
    t.find r.withClassLists = t.find r ∧
      (t.wrap r.withClassLists).2 = (t.wrap r).2 ∧
      (t.wrap r.withClassLists).1 = (t.wrap r).1.withClassLists ∧
      ∀ e : Element,
        t.isTarget (e.mapAllProperties Properties.withClassList) = t.isTarget e ∧
          t.isWrapper (e.mapAllProperties Properties.withClassList) = t.isWrapper e := by
  have h := overlooks_withClassList hattr
  refine ⟨find_mapProperties h r, ?_, ?_, fun e => ⟨?_, ?_⟩⟩
  · simp [wrap_eq hattr, Root.withClassLists, Root.mapProperties, dueAmong_mapPropertiesOfAll h]
  · simp [wrap_eq hattr, Root.withClassLists, Root.mapProperties,
      onePassAll_mapPropertiesOfAll h]
  · exact isTarget_mapAllProperties h e
  · exact isWrapper_mapAllProperties h e

/-- A wrapped block and one that is not wrapped, with given classes of the wrapper and of
the second code element. -/
def classedBlocks (wrapperClass codeClass : PropertyValue) : Root :=
  ⟨[.element "div"
      (.ofList [("className", wrapperClass), ("data-mermaid-code", .text " A ")])
      [(standard.block {} [.text "A"]).node],
    .element "pre" (.ofList [("className", .flag true)])
      [.element "code" (.ofList [("className", codeClass)]) [.text "B"]]]⟩

/-- Only the second block is wrapped, in both forms, and the source of the first, which is no
class, keeps its blanks. -/
theorem wrap_withClassLists_classedBlocks :
    standard.rawCodeAttribute ≠ Properties.className ∧
      let texts := classedBlocks (.text "wide mermaid-wrapper") (.text "\thljs language-mermaid\n")
      let lists := classedBlocks (.list ["wide", "mermaid-wrapper"])
        (.list ["hljs", "language-mermaid"])
      texts.withClassLists = lists ∧
        standard.find lists = standard.find texts ∧ standard.find texts = [⟨0, "B"⟩] ∧
        (standard.wrap lists).2 = 1 ∧
        (standard.wrap lists).1 = (standard.wrap texts).1.withClassLists := by
  have hattr : standard.rawCodeAttribute ≠ Properties.className := by decide
  refine ⟨hattr, ?_⟩
  intro texts lists
  have hlists : texts.withClassLists = lists := rfl
  obtain ⟨hfind, hcount, hwrap, -⟩ := wrap_withClassLists standard hattr texts
  rw [hlists] at hfind hcount hwrap
  exact ⟨hlists, hfind, rfl, hcount.trans rfl, hwrap⟩

end TargetBlock

end FencedCode
