import FencedCode.Proofs.Json.FiniteNumbers
import FencedCode.Proofs.PropertyMaps
import FencedCode.Tree.Decode

/-!
# Numbers of decoded documents

JSON has no text for a number that is not finite, and decoding makes no new numbers.  So a
document that is decoded from a text has only finite numbers among its properties, and every
one of them has a text again.
-/

namespace FencedCode

/-! ## Property values -/

/-- Whether all numbers among some properties are finite. -/
def Properties.AllFinite (p : Properties) : Prop :=
  ∀ x ∈ p.numbers, x.isFinite = true

lemma Properties.allFinite_empty : AllFinite {} := by
  intro x hx
  cases hx

lemma PropertyValue.isFinite_of_ofJson? {j : Json} (hj : j.AllFinite) {x : Double}
    (h : ofJson? j = some (.number x)) : x.isFinite = true := by
  cases hj with
  | number hn => cases h; exact hn
  | array hitems =>
    obtain ⟨items, -, hlist⟩ := Option.map_eq_some_iff.1 h
    cases hlist
  | null => cases h
  | bool b => cases h
  | string s => cases h
  | object hmembers => cases h

namespace Properties

lemma allFinite_ofMembers {members : List (String × Json)}
    (h : ∀ m ∈ members, m.2.AllFinite) : (ofMembers members).AllFinite := by
  intro x hx
  obtain ⟨⟨name, value⟩, hentry, hnumber⟩ := List.mem_filterMap.1 hx
  obtain ⟨j, hj, hvalue⟩ := NameMap.exists_of_mem_filterMap hentry
  cases value with
  | number y =>
    obtain rfl := Option.some.inj hnumber
    exact PropertyValue.isFinite_of_ofJson? (h _ (NameMap.mem_of_mem_ofList hj)) hvalue
  | flag on => cases hnumber
  | text s => cases hnumber
  | list items => cases hnumber

lemma allFinite_of_ofJson {j : Json} (hj : j.AllFinite) {p : Properties}
    (h : (ofJson j).result = .ok p) : p.AllFinite := by
  cases hj with
  | object hmembers =>
    obtain ⟨_, -, h⟩ := Logged.exists_of_result_bind h
    obtain rfl := Except.ok.inj h
    exact allFinite_ofMembers hmembers
  | null =>
    obtain rfl := Except.ok.inj h
    exact allFinite_empty
  | bool b => cases h
  | number hn => cases h
  | string s => cases h
  | array hitems => cases h

end Properties

/-! ## Nodes -/

/-- Whether all numbers among the properties of some elements are finite. -/
def AllFiniteAmong (elements : List Element) : Prop :=
  ∀ e ∈ elements, e.properties.AllFinite

/-- Whether all numbers in the fields of a node that are read so far are finite. -/
structure Fields.AllFinite (fields : Fields) : Prop where
  properties : ∀ p ∈ fields.properties, p.AllFinite
  children : ∀ nodes ∈ fields.children, AllFiniteAmong (Node.elementsOfAll nodes)

lemma Fields.allFinite_empty : Fields.AllFinite {} :=
  ⟨by simp, by simp⟩

namespace Node

lemma allFinite_of_ofFields {kind : Kind} {fields : Fields} (hfields : fields.AllFinite)
    {n : Node} (h : (ofFields kind fields).result = .ok n) : AllFiniteAmong n.elements := by
  have hchildren : AllFiniteAmong (elementsOfAll (fields.children.getD [])) := by
    cases hnodes : fields.children with
    | none => simp [elementsOfAll, AllFiniteAmong]
    | some nodes => exact hfields.children nodes hnodes
  have hproperties : (fields.properties.getD {}).AllFinite := by
    cases hp : fields.properties with
    | none => exact Properties.allFinite_empty
    | some p => exact hfields.properties p hp
  cases kind with
  | root =>
    obtain rfl := Except.ok.inj h
    rwa [elements]
  | element =>
    rw [ofFields] at h
    split at h
    · cases h
    · obtain rfl := Except.ok.inj h
      rw [elements]
      exact List.forall_mem_cons.2 ⟨hproperties, hchildren⟩
  | text =>
    obtain rfl := Except.ok.inj h
    simp [elements, AllFiniteAmong]
  | comment =>
    obtain rfl := Except.ok.inj h
    simp [elements, AllFiniteAmong]
  | doctype =>
    obtain rfl := Except.ok.inj h
    simp [elements, AllFiniteAmong]

lemma allFinite_of_readLeaf {fields : Fields} (hfields : fields.AllFinite) {field : Field}
    {j : Json} (hj : j.AllFinite) {fields' : Fields}
    (h : (readLeaf fields field j).result = .ok fields') : fields'.AllFinite := by
  cases field with
  | tag =>
    obtain ⟨_, -, h⟩ := Logged.exists_of_result_bind h
    obtain rfl := Except.ok.inj h
    exact ⟨hfields.properties, hfields.children⟩
  | properties =>
    obtain ⟨p, hp, h⟩ := Logged.exists_of_result_bind h
    obtain rfl := Except.ok.inj h
    refine ⟨fun q hq => ?_, hfields.children⟩
    obtain rfl := Option.some.inj hq
    exact Properties.allFinite_of_ofJson hj hp
  | children => cases h
  | value =>
    obtain ⟨_, -, h⟩ := Logged.exists_of_result_bind h
    obtain rfl := Except.ok.inj h
    exact ⟨hfields.properties, hfields.children⟩

-- The induction is on the value, along the recursion of the decoder: what is read so far of a
-- node is finite before and after each of its fields.
mutual

/-- Decoding a value with finite numbers gives elements with finite numbers. -/
lemma allFinite_of_ofJson {j : Json} (hj : j.AllFinite) {n : Node}
    (h : (ofJson j).result = .ok n) : AllFiniteAmong n.elements := by
  match j, hj with
  | .object members, .object hmembers =>
    obtain ⟨kind, -, h⟩ := Logged.exists_of_result_bind h
    obtain ⟨fields, hfields, h⟩ := Logged.exists_of_result_bind h
    exact allFinite_of_ofFields
      (allFinite_of_readMembers Fields.allFinite_empty hmembers hfields) h
  | .array [], _ => cases h
  | .array (tag :: items), .array hitems =>
    obtain ⟨kind, -, h⟩ := Logged.exists_of_result_bind h
    obtain ⟨fields, hfields, h⟩ := Logged.exists_of_result_bind h
    exact allFinite_of_ofFields
      (allFinite_of_readItems Fields.allFinite_empty
        (fun j hj => hitems j (List.mem_cons_of_mem tag hj)) hfields) h
  | .null, _ => cases h
  | .bool b, _ => cases h
  | .number n, _ => cases h
  | .string s, _ => cases h

/-- The same for several nodes. -/
lemma allFinite_of_ofJsons {items : List Json} (hitems : ∀ j ∈ items, j.AllFinite)
    {nodes : List Node} (h : (ofJsons items).result = .ok nodes) :
    AllFiniteAmong (elementsOfAll nodes) := by
  match items with
  | [] =>
    obtain rfl := Except.ok.inj h
    simp [elementsOfAll, AllFiniteAmong]
  | j :: rest =>
    obtain ⟨hj, hrest⟩ := List.forall_mem_cons.1 hitems
    obtain ⟨n, hn, h⟩ := Logged.exists_of_result_bind h
    obtain ⟨nodes, hnodes, h⟩ := Logged.exists_of_result_bind h
    obtain rfl := Except.ok.inj h
    rw [elementsOfAll]
    exact List.forall_mem_append.2 ⟨allFinite_of_ofJson hj hn, allFinite_of_ofJsons hrest hnodes⟩

/-- A field that is read keeps what is read so far finite. -/
lemma allFinite_of_readField {fields : Fields} (hfields : fields.AllFinite) {field : Field}
    {j : Json} (hj : j.AllFinite) {fields' : Fields}
    (h : (readField fields field j).result = .ok fields') : fields'.AllFinite := by
  match j, hj with
  | .array items, .array hitems =>
    cases field with
    | children =>
      obtain ⟨nodes, hnodes, h⟩ := Logged.exists_of_result_bind h
      obtain rfl := Except.ok.inj h
      refine ⟨hfields.properties, fun nodes' hnodes' => ?_⟩
      obtain rfl := Option.some.inj hnodes'
      exact allFinite_of_ofJsons hitems hnodes
    | tag => exact allFinite_of_readLeaf hfields (.array hitems) h
    | properties => exact allFinite_of_readLeaf hfields (.array hitems) h
    | value => exact allFinite_of_readLeaf hfields (.array hitems) h
  | .null, hj => exact allFinite_of_readLeaf hfields hj h
  | .bool b, hj => exact allFinite_of_readLeaf hfields hj h
  | .number n, hj => exact allFinite_of_readLeaf hfields hj h
  | .string s, hj => exact allFinite_of_readLeaf hfields hj h
  | .object members, hj => exact allFinite_of_readLeaf hfields hj h

/-- The members of a node keep what is read so far finite. -/
lemma allFinite_of_readMembers {kind : Kind} {fields : Fields} (hfields : fields.AllFinite)
    {members : List (String × Json)} (hmembers : ∀ m ∈ members, m.2.AllFinite)
    {fields' : Fields} (h : (readMembers kind fields members).result = .ok fields') :
    fields'.AllFinite := by
  match members with
  | [] =>
    obtain rfl := Except.ok.inj h
    exact hfields
  | (name, j) :: rest =>
    obtain ⟨hj, hrest⟩ := List.forall_mem_cons.1 hmembers
    rw [readMembers] at h
    split at h
    · exact allFinite_of_readMembers hfields hrest h
    · split at h
      · cases h
      · obtain ⟨next, hnext, h⟩ := Logged.exists_of_result_bind h
        exact allFinite_of_readMembers (allFinite_of_readField hfields hj hnext) hrest h

/-- The items of a node keep what is read so far finite. -/
lemma allFinite_of_readItems {kind : Kind} {expected : List Field} {count : Nat}
    {fields : Fields} (hfields : fields.AllFinite) {items : List Json}
    (hitems : ∀ j ∈ items, j.AllFinite) {fields' : Fields}
    (h : (readItems kind expected count fields items).result = .ok fields') :
    fields'.AllFinite := by
  match items with
  | [] =>
    unfold readItems at h
    split at h
    · cases h
    · obtain rfl := Except.ok.inj h
      exact hfields
  | j :: rest =>
    obtain ⟨hj, hrest⟩ := List.forall_mem_cons.1 hitems
    unfold readItems at h
    split at h
    · cases h
    · obtain ⟨next, hnext, h⟩ := Logged.exists_of_result_bind h
      exact allFinite_of_readItems (allFinite_of_readField hfields hj hnext) hrest h

end

/-! ## The outermost node -/

/-- Whether all numbers in what is known of the outermost node are finite. -/
def Outer.AllFinite : Outer → Prop
  | .members _ read => ∀ m ∈ read, m.2.AllFinite
  | .items _ read => ∀ j ∈ read, j.AllFinite

lemma outerMember_invariant {read : List Char → Except Json.Error (Json × List Char)}
    (hread : Json.ReadsFinite read) {state : Option Kind × List (String × Json)}
    {name : String} {text : List Char}
    {result : (Option Kind × List (String × Json)) × List Char}
    (hstate : ∀ m ∈ state.2, m.2.AllFinite)
    (h : outerMember read state name text = .ok result) :
    ∀ m ∈ result.1.2, m.2.AllFinite := by
  rw [outerMember] at h
  split at h
  · split at h
    · cases h
    · obtain ⟨_, -, h⟩ := exists_of_bind_eq_ok h
      obtain ⟨_, -, h⟩ := exists_of_bind_eq_ok h
      obtain rfl := Except.ok.inj h
      exact hstate
  · obtain ⟨members, hmembers, h⟩ := exists_of_bind_eq_ok h
    obtain rfl := Except.ok.inj h
    exact Json.collectMember_invariant hread hstate hmembers

lemma allFinite_of_readOuter {fuel : Nat} {text : List Char} {result : Outer × List Char}
    (h : readOuter fuel text = .ok result) : result.1.AllFinite := by
  have hread := Json.readsFinite_readValue fuel (Json.maxDepth - 1)
  rw [readOuter] at h
  split at h
  · cases h
  · -- An object: the loop keeps its members, and its kind apart from them.
    obtain ⟨⟨⟨kind, members⟩, rest⟩, hmembers, h⟩ := exists_of_bind_eq_ok h
    have hall := Json.foldMembers_invariant
      (P := fun state : Option Kind × List (String × Json) => ∀ m ∈ state.2, m.2.AllFinite)
      (outerMember_invariant hread) (by simp) hmembers
    cases kind with
    | none => cases h
    | some kind =>
      obtain rfl := Except.ok.inj h
      exact fun m hm => hall m (List.mem_reverse.1 hm)
  · split at h
    · cases h
    · -- An array: the kind is read first, and the items are those behind it.
      obtain ⟨_, -, h⟩ := exists_of_bind_eq_ok h
      obtain ⟨items, hitems, h⟩ := exists_of_bind_eq_ok h
      obtain rfl := Except.ok.inj h
      have hall := Json.foldItems_invariant
        (P := fun items : List Json => ∀ j ∈ items, j.AllFinite)
        (Json.collectItem_invariant hread) (by simp) hitems
      exact fun j hj => hall j (List.mem_reverse.1 hj)
  · obtain ⟨_, -, h⟩ := exists_of_bind_eq_ok h
    cases h

lemma allFinite_of_ofOuter {outer : Outer} (houter : outer.AllFinite) {n : Node}
    (h : (ofOuter outer).result = .ok n) : AllFiniteAmong n.elements := by
  cases outer with
  | members kind members =>
    obtain ⟨fields, hfields, h⟩ := Logged.exists_of_result_bind h
    exact allFinite_of_ofFields
      (allFinite_of_readMembers Fields.allFinite_empty houter hfields) h
  | items kind items =>
    obtain ⟨fields, hfields, h⟩ := Logged.exists_of_result_bind h
    exact allFinite_of_ofFields
      (allFinite_of_readItems Fields.allFinite_empty houter hfields) h

lemma allFinite_of_ofJsonText {text : String} {n : Node}
    (h : (ofJsonText text).result = .ok n) : AllFiniteAmong n.elements := by
  obtain ⟨outer, houter, h⟩ := Logged.exists_of_result_bind h
  obtain ⟨n', hn', h⟩ := Logged.exists_of_result_bind h
  obtain ⟨_, -, h⟩ := Logged.exists_of_result_bind h
  obtain rfl := Except.ok.inj h
  exact allFinite_of_ofOuter (allFinite_of_readOuter houter) hn'

end Node

/-- **All numbers of a decoded document are finite.** -/
theorem Root.isFinite_of_ofJsonText {text : String} {r : Root}
    (h : (Root.ofJsonText text).result = .ok r) : ∀ x ∈ r.numbers, x.isFinite = true := by
  obtain ⟨n, hn, h⟩ := Logged.exists_of_result_bind h
  have hfinite := Node.allFinite_of_ofJsonText (eq_ok_of_mapError_eq_ok hn)
  cases n with
  | root children =>
    obtain rfl := Except.ok.inj h
    rw [Node.elements] at hfinite
    intro x hx
    obtain ⟨e, he, hnumber⟩ := List.mem_flatMap.1 hx
    exact hfinite e he x hnumber
  | element tag properties children => cases h
  | text value => cases h
  | comment value => cases h
  | doctype => cases h

end FencedCode
