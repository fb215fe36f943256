import FencedCode.Proofs.Json.Values
import FencedCode.Proofs.PropertyMaps
import FencedCode.Tree.Decode
import FencedCode.Tree.Encode

/-!
# Nodes decoded from their own encoding

What is decoded from the encoding of a node is the node itself, except for the numbers among
its properties: one that is not finite was written as `null` and its property is dropped,
and any other is what the reader makes of its text.  Nothing is reported on the way.
-/

namespace FencedCode

/-! ## Numbers -/

/-- What the reader makes of the text of a number, if it has one. -/
def Double.reread? (x : Double) : Option Double :=
  (JsonNumber.float x).reread?.map JsonNumber.toDouble

lemma Double.reread?_of_not_isFinite {x : Double} (h : x.isFinite = false) :
    x.reread? = none := by
  match x with
  | .finite negative size => cases h
  | .nan => rfl
  | .infinity negative => rfl

/-- The text of every finite number is that of some number. -/
lemma JsonNumber.readable_float (x : Double) : (float x).Readable := by
  intro hchars
  match x with
  | .finite negative size =>
    have hspelling : (float (.finite negative size)).spelling? =
        some (negative, .ofMagnitude size) := rfl
    obtain ⟨n, hn⟩ := Json.exists_number negative size
    rw [reread?_eq hspelling, hn]
    rfl
  | .nan => cases hchars
  | .infinity negative => cases hchars

/-! ## Property values -/

/-- The value as it is decoded from its own encoding. -/
def PropertyValue.reread? : PropertyValue → Option PropertyValue
  | number x => x.reread?.map number
  | v => some v

/-- The properties as they are decoded from their own encoding. -/
def Properties.reread (p : Properties) : Properties :=
  p.filterMap PropertyValue.reread?

namespace PropertyValue

lemma rereadItems_map_string (items : List String) :
    Json.rereadItems (items.map .string) = items.map .string := by
  induction items with
  | nil => rfl
  | cons s rest ih => rw [List.map_cons, Json.rereadItems, Json.reread_string, ih]

lemma mapM_itemText?_string (items : List String) :
    (items.map Json.string).mapM itemText? = some items := by
  induction items with
  | nil => rfl
  | cons s rest ih =>
    rw [List.map_cons, List.mapM_cons, ih]
    rfl

/-- A value is decoded from what is read back of its encoding. -/
lemma ofJson?_reread_toJson (v : PropertyValue) : ofJson? v.toJson.reread = v.reread? := by
  match v with
  | flag on => rfl
  | number x =>
    rw [toJson, Json.reread, reread?, Double.reread?]
    cases (JsonNumber.float x).reread? <;> rfl
  | text s => rfl
  | list items =>
    rw [toJson, Json.reread, rereadItems_map_string, ofJson?, mapM_itemText?_string]
    rfl

/-- Nothing that is read back of a property value is dropped with a report. -/
lemma isUnsupported_reread_toJson (v : PropertyValue) :
    Properties.isUnsupported v.toJson.reread = false := by
  match v with
  | flag on => rfl
  | number x =>
    rw [toJson, Json.reread]
    cases (JsonNumber.float x).reread? <;> rfl
  | text s => rfl
  | list items =>
    rw [toJson, Json.reread, rereadItems_map_string, Properties.isUnsupported, ofJson?,
      mapM_itemText?_string]
    · rfl
    · simp

end PropertyValue

namespace Properties

lemma rereadMembers_map (entries : List (String × PropertyValue)) :
    Json.rereadMembers (entries.map fun e => (e.1, e.2.toJson)) =
      entries.map fun e => (e.1, e.2.toJson.reread) := by
  induction entries with
  | nil => rfl
  | cons e rest ih => rw [List.map_cons, Json.rereadMembers, ih, List.map_cons]

/-- Properties are decoded from what is read back of their encoding, without a report. -/
lemma ofJson_reread_toJson (p : Properties) : ofJson p.toJson.reread = pure p.reread := by
  have hentries : p.toJson.reread =
      .object (p.filterMap fun v => some v.toJson.reread).entries := by
    rw [toJson, Json.reread, rereadMembers_map, NameMap.entries_filterMap_some]
  have hdropped : droppedAmong (p.filterMap fun v => some v.toJson.reread).entries = [] := by
    rw [droppedAmong, NameMap.ofList_entries, NameMap.entries_filterMap_some, List.map_eq_nil_iff,
      List.filter_eq_nil_iff]
    intro e he
    obtain ⟨entry, -, rfl⟩ := List.mem_map.1 he
    rw [PropertyValue.isUnsupported_reread_toJson]
    decide
  have hmembers : ofMembers (p.filterMap fun v => some v.toJson.reread).entries = p.reread := by
    rw [ofMembers, NameMap.ofList_entries, NameMap.filterMap_filterMap, reread]
    simp only [Option.bind_some, PropertyValue.ofJson?_reread_toJson]
  rw [hentries, ofJson, hdropped, hmembers]
  rfl

end Properties

/-! ## Nodes -/

namespace Node

/-- The members of the object of a node that come after its kind. -/
def fields : Node → List (String × Json)
  | root children => [("children", .array (toJsons children))]
  | element tag properties children =>
    [("tagName", .string tag), ("properties", properties.toJson),
      ("children", .array (toJsons children))]
  | text value => [("value", .string value)]
  | comment value => [("value", .string value)]
  | doctype => []

lemma toJson_eq (n : Node) : n.toJson = .object (n.kind.member :: n.fields) := by
  cases n <;> rw [toJson] <;> rfl

lemma kindOfMembers_member (k : Kind) (members : List (String × Json)) :
    kindOfMembers none (k.member :: members) = kindOfMembers (some k) members := by
  rw [Kind.member, kindOfMembers, if_pos rfl]
  simp only [kindOfJson, kindOfName, Kind.ofName?_name, bind, Except.bind]

/-- The kind stands in front of the fields and is not repeated among them. -/
lemma kindOfMembers_reread_fields (n : Node) :
    kindOfMembers (some n.kind) (Json.rereadMembers n.fields) = .ok n.kind := by
  cases n <;> simp [fields, Json.rereadMembers, kindOfMembers]

lemma ofName?_type (k : Kind) : Field.ofName? k "type" = none := by
  cases k <;> decide

/-- A node is decoded from its kind and its fields. -/
lemma ofJson_object_member (n : Node) :
    ofJson (.object (n.kind.member :: Json.rereadMembers n.fields)) =
      readMembers n.kind {} (Json.rereadMembers n.fields) >>= ofFields n.kind := by
  rw [ofJson, kindOfMembers_member, kindOfMembers_reread_fields]
  change readMembers n.kind {} (n.kind.member :: Json.rereadMembers n.fields) >>=
    ofFields n.kind = _
  rw [Kind.member, readMembers, ofName?_type]

lemma reread_toJson (n : Node) :
    n.toJson.reread = .object (n.kind.member :: Json.rereadMembers n.fields) := by
  rw [toJson_eq, Json.reread, Kind.member, Json.rereadMembers, Json.reread_string]

-- Induction on the tree, with the fields of a node in place of its object: the outermost node
-- is decoded from its fields as well, but its kind is read in another way.
mutual

/-- A node is decoded from what is read back of its fields, without a report. -/
lemma ofFields_reread_fields (n : Node) :
    readMembers n.kind {} (Json.rereadMembers n.fields) >>= ofFields n.kind =
      pure (n.mapProperties Properties.reread) := by
  match n with
  | root children =>
    have hname : Field.ofName? .root "children" = some .children := by decide
    have ih := ofJsons_reread_toJsons children
    simp [fields, kind, Json.rereadMembers, Json.reread, readMembers, hname, Fields.has, readField,
      ih, ofFields, mapProperties]
  | element tag properties children =>
    have htag : Field.ofName? .element "tagName" = some .tag := by decide
    have hproperties : Field.ofName? .element "properties" = some .properties := by decide
    have hchildren : Field.ofName? .element "children" = some .children := by decide
    have ih := ofJsons_reread_toJsons children
    have hvalue := properties.ofJson_reread_toJson
    obtain ⟨members, hmembers⟩ : ∃ members, properties.toJson.reread = .object members := by
      rw [Properties.toJson, Json.reread]
      exact ⟨_, rfl⟩
    rw [hmembers] at hvalue
    simp [fields, kind, Json.rereadMembers, Json.reread, readMembers, htag, hproperties,
      hchildren, Fields.has, readField, readLeaf, stringField, hmembers, hvalue, ih, ofFields,
      mapProperties]
  | text value =>
    have hname : Field.ofName? .text "value" = some .value := by decide
    simp [fields, kind, Json.rereadMembers, readMembers, hname, Fields.has, readField, readLeaf,
      stringField, ofFields, mapProperties]
  | comment value =>
    have hname : Field.ofName? .comment "value" = some .value := by decide
    simp [fields, kind, Json.rereadMembers, readMembers, hname, Fields.has, readField, readLeaf,
      stringField, ofFields, mapProperties]
  | doctype => rfl

lemma ofJsons_reread_toJsons (nodes : List Node) :
    ofJsons (Json.rereadItems (toJsons nodes)) =
      pure (mapPropertiesOfAll Properties.reread nodes) := by
  match nodes with
  | [] => rfl
  | n :: rest =>
    have hfirst := ofFields_reread_fields n
    have hrest := ofJsons_reread_toJsons rest
    rw [toJsons, Json.rereadItems, ofJsons, reread_toJson, ofJson_object_member, hfirst,
      Logged.pure_bind, hrest, Logged.pure_bind, mapPropertiesOfAll]

end

end Node

end FencedCode
