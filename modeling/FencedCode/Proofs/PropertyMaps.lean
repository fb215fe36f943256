import FencedCode.Proofs.Elements
import FencedCode.Proofs.NameMap

/-!
# Changing all properties of a document

A change of the properties of every element leaves the rest of a document as it is, and what
it does depends on the properties that occur only.
-/

namespace FencedCode

/-! ## Changing the properties of every element -/

namespace Node

mutual

/-- Changes the properties of every element at and below a node. -/
def mapProperties (f : Properties → Properties) : Node → Node
  | root children => root (mapPropertiesOfAll f children)
  | element tag properties children =>
    element tag (f properties) (mapPropertiesOfAll f children)
  | text value => text value
  | comment value => comment value
  | doctype => doctype

/-- Changes the properties of every element at and below several nodes. -/
def mapPropertiesOfAll (f : Properties → Properties) : List Node → List Node
  | [] => []
  | n :: rest => mapProperties f n :: mapPropertiesOfAll f rest

end

variable {f g : Properties → Properties}

mutual

/-- A change is determined by what it does to the properties that occur. -/
lemma mapProperties_congr (n : Node) (h : ∀ e ∈ n.elements, f e.properties = g e.properties) :
    n.mapProperties f = n.mapProperties g := by
  match n with
  | root children =>
    rw [mapProperties, mapProperties, mapPropertiesOfAll_congr children h]
  | element tag properties children =>
    rw [elements] at h
    rw [mapProperties, mapProperties, h _ List.mem_cons_self,
      mapPropertiesOfAll_congr children fun e he => h e (List.mem_cons_of_mem _ he)]
  | text value => rfl
  | comment value => rfl
  | doctype => rfl

lemma mapPropertiesOfAll_congr (nodes : List Node)
    (h : ∀ e ∈ elementsOfAll nodes, f e.properties = g e.properties) :
    mapPropertiesOfAll f nodes = mapPropertiesOfAll g nodes := by
  match nodes with
  | [] => rfl
  | n :: rest =>
    rw [elementsOfAll] at h
    rw [mapPropertiesOfAll, mapPropertiesOfAll,
      mapProperties_congr n fun e he => h e (List.mem_append_left _ he),
      mapPropertiesOfAll_congr rest fun e he => h e (List.mem_append_right _ he)]

end

mutual

/-- A change that does nothing to the properties that occur does nothing. -/
lemma mapProperties_id (n : Node) : n.mapProperties id = n := by
  match n with
  | root children => rw [mapProperties, mapPropertiesOfAll_id children]
  | element tag properties children =>
    rw [mapProperties, mapPropertiesOfAll_id children, id]
  | text value => rfl
  | comment value => rfl
  | doctype => rfl

lemma mapPropertiesOfAll_id (nodes : List Node) : mapPropertiesOfAll id nodes = nodes := by
  match nodes with
  | [] => rfl
  | n :: rest => rw [mapPropertiesOfAll, mapProperties_id n, mapPropertiesOfAll_id rest]

end

end Node

namespace Root

/-- Changes the properties of every element of a document. -/
def mapProperties (f : Properties → Properties) (r : Root) : Root :=
  ⟨Node.mapPropertiesOfAll f r.children⟩

lemma mapProperties_congr {f g : Properties → Properties} {r : Root}
    (h : ∀ e ∈ r.elements, f e.properties = g e.properties) :
    r.mapProperties f = r.mapProperties g := by
  rw [mapProperties, mapProperties, Node.mapPropertiesOfAll_congr r.children h]

lemma mapProperties_eq_self {f : Properties → Properties} {r : Root}
    (h : ∀ e ∈ r.elements, f e.properties = e.properties) : r.mapProperties f = r := by
  rw [mapProperties_congr h (g := id), mapProperties, Node.mapPropertiesOfAll_id]

end Root

/-! ## The numbers of a document -/

/-- The number that a property value is, if it is one. -/
def PropertyValue.number? : PropertyValue → Option Double
  | number x => some x
  | _ => none

/-- The numbers among the values of some properties. -/
def Properties.numbers (p : Properties) : List Double :=
  p.entries.filterMap fun e => e.2.number?

/-- The numbers among the properties of a document. -/
def Root.numbers (r : Root) : List Double :=
  r.elements.flatMap fun e => e.properties.numbers

lemma Properties.mem_numbers {p : Properties} {name : String} {x : Double}
    (h : (name, .number x) ∈ p.entries) : x ∈ p.numbers :=
  List.mem_filterMap.2 ⟨_, h, rfl⟩

lemma Root.mem_numbers {r : Root} {e : Element} (he : e ∈ r.elements) {x : Double}
    (hx : x ∈ e.properties.numbers) : x ∈ r.numbers :=
  List.mem_flatMap.2 ⟨e, he, hx⟩

/-! ## Dropping the numbers that are not finite -/

/-- The value, unless it is a number that is not finite. -/
def PropertyValue.finite? : PropertyValue → Option PropertyValue
  | number x => if x.isFinite then some (number x) else none
  | v => some v

/-- The properties without those whose value is a number that is not finite. -/
def Properties.withoutNonFinite (p : Properties) : Properties :=
  p.filterMap PropertyValue.finite?

/-- The document without the properties whose value is a number that is not finite. -/
def Root.withoutNonFinite (r : Root) : Root :=
  r.mapProperties Properties.withoutNonFinite

/-- Nothing is dropped from a document in which all numbers are finite. -/
lemma Root.withoutNonFinite_eq_self {r : Root} (h : ∀ x ∈ r.numbers, x.isFinite = true) :
    r.withoutNonFinite = r := by
  refine mapProperties_eq_self fun e he => NameMap.filterMap_eq_self fun entry hentry => ?_
  obtain ⟨name, v⟩ := entry
  cases v with
  | number x =>
    have hx := h x (mem_numbers he (Properties.mem_numbers hentry))
    rw [PropertyValue.finite?, if_pos hx]
  | flag on => rfl
  | text s => rfl
  | list items => rfl

end FencedCode
