import FencedCode.Proofs.Decoding.Outermost
import FencedCode.Proofs.NameMap
import Mathlib.Logic.Relation

/-!
# What decoding does not look at

The members of a node may stand in any order, and so may those of its properties unless a
name is repeated; members that are neither `type` nor a field of the kind of the node may be
put in and left out; and fields may be left out that hold what they are by default.  An edit
does one of these things to one node of a document, and no row of edits is seen by decoding,
`Root.ofJsonText_of_edits`.
-/

namespace FencedCode

open Relation (ReflTransGen)

namespace Json

/-- A name that is foreign to the members of a node: it is not `type`, and no field of the
kind of the node has it. -/
def IsForeign (members : List (String × Json)) (name : String) : Prop :=
  name ≠ "type" ∧ ∃ tag k, ("type", tag) ∈ members ∧ Node.kindOfJson tag = .ok k ∧
    ∀ f ∈ Field.ofKind k, f.name ≠ name

/-- Whether a value says of a field what it is without a member. -/
inductive IsDefault : Field → Json → Prop where
  | children : IsDefault .children (array [])
  | properties : IsDefault .properties (object [])
  | noProperties : IsDefault .properties null
  | value : IsDefault .value (string "")

lemma IsForeign.append_cons {before after : List (String × Json)} {name : String}
    (h : IsForeign (before ++ after) name) {m : String × Json} :
    IsForeign (before ++ m :: after) name := by
  obtain ⟨hname, tag, k, htag, hk, hfields⟩ := h
  refine ⟨hname, tag, k, ?_, hk, hfields⟩
  rcases List.mem_append.1 htag with htag | htag
  · exact List.mem_append_left _ htag
  · exact List.mem_append_right _ (List.mem_cons_of_mem m htag)

/-- An edit of one node of a document. -/
inductive Edit : Json → Json → Prop where
  /-- The members change places. -/
  | permute {members members' : List (String × Json)} (h : members.Perm members') :
      Edit (object members) (object members')
  /-- A foreign member is put in. -/
  | insert {before after : List (String × Json)} {name : String} (j : Json)
      (h : IsForeign (before ++ after) name) :
      Edit (object (before ++ after)) (object (before ++ (name, j) :: after))
  /-- A foreign member is left out. -/
  | delete {before after : List (String × Json)} {name : String} {j : Json}
      (h : IsForeign (before ++ after) name) :
      Edit (object (before ++ (name, j) :: after)) (object (before ++ after))
  /-- The properties change places, none of which has the name of another. -/
  | permuteProperties {before after members members' : List (String × Json)}
      (h : members.Perm members') (hnodup : (members.map Prod.fst).Nodup) :
      Edit (object (before ++ ("properties", object members) :: after))
        (object (before ++ ("properties", object members') :: after))
  /-- A field is left out that holds what it is by default. -/
  | drop {before after : List (String × Json)} {f : Field} {j : Json} (h : IsDefault f j) :
      Edit (object (before ++ (f.name, j) :: after)) (object (before ++ after))
  /-- A child is edited. -/
  | child {before after : List (String × Json)} {items items' : List Json} {j j' : Json}
      (h : Edit j j') :
      Edit (object (before ++ ("children", array (items ++ j :: items')) :: after))
        (object (before ++ ("children", array (items ++ j' :: items')) :: after))

end Json

namespace Node

variable {k : Kind} {F : Fields} {before after : List (String × Json)} {j j' : Json} {n : Node}

/-! ## One edit of one node -/

/-- Names that are foreign to the members hold no field. -/
lemma Says.ofName?_eq_none {members : List (String × Json)} (h : Says members k F)
    {name : String} (hname : Json.IsForeign members name) : Field.ofName? k name = none := by
  obtain ⟨-, tag, k', htag, hk', hfields⟩ := hname
  obtain rfl := h.kind_eq htag hk'
  exact Field.ofName?_eq_none_iff.2 hfields

/-- If the value of a field gives way to one that is read alike, the node stays the same. -/
lemma ofJson_of_field {f : Field}
    (hread : ∀ G, (readField {} f j).result = .ok G → (readField {} f j').result = .ok G)
    (h : (ofJson (.object (before ++ (f.name, j) :: after))).result = .ok n) :
    (ofJson (.object (before ++ (f.name, j') :: after))).result = .ok n := by
  rcases exists_ofJson_of_field j' h with hsame | ⟨k, F, hj, hn, hother⟩
  · exact hsame
  · exact hother (hread _ hj) (by rwa [F.put_only])

/-- The order of properties does not count, if no name is repeated. -/
lemma readField_properties_of_perm {members members' : List (String × Json)}
    (h : members.Perm members') (hnodup : (members.map Prod.fst).Nodup) {G : Fields}
    (hread : (readField {} .properties (.object members)).result = .ok G) :
    (readField {} .properties (.object members')).result = .ok G := by
  have hmembers : Properties.ofMembers members = Properties.ofMembers members' := by
    rw [Properties.ofMembers, Properties.ofMembers, NameMap.ofList_eq_of_perm h hnodup]
  obtain rfl : { properties := some (Properties.ofMembers members) } = G := Except.ok.inj hread
  rw [hmembers]
  rfl

/-- A child that is edited is decoded as before, and its siblings are. -/
lemma readField_children_of_child {items items' : List Json}
    (h : ∀ n, (ofJson j).result = .ok n → (ofJson j').result = .ok n) {G : Fields}
    (hread : (readField {} .children (.array (items ++ j :: items'))).result = .ok G) :
    (readField {} .children (.array (items ++ j' :: items'))).result = .ok G := by
  obtain ⟨nodes, hnodes, hG⟩ := Logged.exists_of_result_bind hread
  obtain ⟨ns, n, ns', rfl, hns, hn, hns'⟩ := ofJsons_append_cons_eq_ok_iff.1 hnodes
  have hedited := ofJsons_append_cons_eq_ok_iff.2 ⟨ns, n, ns', rfl, hns, h n hn, hns'⟩
  exact (Logged.result_bind_of_ok hedited _).trans hG

/-- A field that is read as its default might as well not be read. -/
lemma ofFields_put_empty {f : Field} (hdefault : Json.IsDefault f j)
    (hread : (readField {} f j).result = .ok (F.only f)) :
    ofFields k (F.put f {}) = ofFields k F := by
  obtain ⟨tag, properties, children, value⟩ := F
  cases hdefault with
  | children =>
    obtain rfl : some [] = children := congrArg Fields.children (Except.ok.inj hread)
    cases k <;> cases tag <;> rfl
  | properties =>
    obtain rfl : some {} = properties := congrArg Fields.properties (Except.ok.inj hread)
    cases k <;> cases tag <;> rfl
  | noProperties =>
    obtain rfl : some {} = properties := congrArg Fields.properties (Except.ok.inj hread)
    cases k <;> cases tag <;> rfl
  | value =>
    obtain rfl : some "" = value := congrArg Fields.value (Except.ok.inj hread)
    cases k <;> cases tag <;> rfl

/-- A member that holds a default can be left out. -/
lemma ofJson_of_default {f : Field} (hdefault : Json.IsDefault f j)
    (h : (ofJson (.object (before ++ (f.name, j) :: after))).result = .ok n) :
    (ofJson (.object (before ++ after))).result = .ok n := by
  obtain ⟨k, F, hsays, hn⟩ := ofJson_object_eq_ok_iff.1 h
  rw [ofJson_object_eq_ok_iff]
  rcases f.ofName?_name k with hname | hname
  · rw [says_append_cons_of_none f.name_ne_type hname] at hsays
    exact ⟨k, F, hsays, hn⟩
  · rw [says_append_cons_of_some hname] at hsays
    exact ⟨k, F.put f {}, hsays.2, by rwa [ofFields_put_empty hdefault hsays.1]⟩

/-! ## Edits of documents -/

/-- An edit is not seen by decoding. -/
lemma ofJson_of_edit (hedit : Json.Edit j j') (h : (ofJson j).result = .ok n) :
    (ofJson j').result = .ok n := by
  -- The induction is on the edit: below a child it is an edit of the field `children`.
  induction hedit generalizing n with
  | permute hperm =>
    obtain ⟨k, F, hsays, hn⟩ := ofJson_object_eq_ok_iff.1 h
    exact ofJson_object_eq_ok_iff.2 ⟨k, F, hsays.perm hperm, hn⟩
  | insert j hforeign =>
    obtain ⟨k, F, hsays, hn⟩ := ofJson_object_eq_ok_iff.1 h
    have hnone := hsays.ofName?_eq_none hforeign
    exact ofJson_object_eq_ok_iff.2
      ⟨k, F, (says_append_cons_of_none hforeign.1 hnone).2 hsays, hn⟩
  | delete hforeign =>
    obtain ⟨k, F, hsays, hn⟩ := ofJson_object_eq_ok_iff.1 h
    have hnone := hsays.ofName?_eq_none hforeign.append_cons
    exact ofJson_object_eq_ok_iff.2
      ⟨k, F, (says_append_cons_of_none hforeign.1 hnone).1 hsays, hn⟩
  | permuteProperties hperm hnodup =>
    exact ofJson_of_field (f := .properties)
      (fun _ hread => readField_properties_of_perm hperm hnodup hread) h
  | drop hdefault => exact ofJson_of_default hdefault h
  | child _ ih =>
    exact ofJson_of_field (f := .children)
      (fun _ hread => readField_children_of_child (fun _ hchild => ih hchild) hread) h

/-- An edit leaves how the kind is said. -/
lemma namesKind_of_edit (hedit : Json.Edit j j') (h : j.NamesKind) : j'.NamesKind := by
  obtain ⟨s, hs⟩ := h
  refine ⟨s, ?_⟩
  cases hedit with
  | permute hperm =>
    exact valuesWhere_eq_singleton_of_perm hperm (show typeValues _ = [.string s] from hs)
  | insert j hforeign => exact (typeValues_append_cons_of_ne hforeign.1 _ _ _).trans hs
  | delete hforeign => exact (typeValues_append_cons_of_ne hforeign.1 _ _ _).symm.trans hs
  | permuteProperties hperm hnodup =>
    rw [Json.tags, typeValues_append_cons_of_ne (by decide)] at hs ⊢
    exact hs
  | drop hdefault =>
    exact (typeValues_append_cons_of_ne (Field.name_ne_type _) _ _ _).symm.trans hs
  | child _ =>
    rw [Json.tags, typeValues_append_cons_of_ne (by decide)] at hs ⊢
    exact hs

/-- No row of edits is seen by decoding. -/
lemma ofJson_of_edits (hedits : ReflTransGen Json.Edit j j') (hkind : j.NamesKind)
    (h : (ofJson j).result = .ok n) : j'.NamesKind ∧ (ofJson j').result = .ok n := by
  induction hedits with
  | refl => exact ⟨hkind, h⟩
  | tail _ hedit ih => exact ⟨namesKind_of_edit hedit ih.1, ofJson_of_edit hedit ih.2⟩

end Node

/-! ## The main result -/

/-- **Decoding does not look at** the order of members and of properties without repeated
names, at foreign members, and at fields that hold their defaults.  A text that is decoded is
the text of a value, and every text of a value that a row of edits makes of it is decoded to
the same document. -/
theorem Root.ofJsonText_of_edits {text : String} {r : Root}
    (h : (Root.ofJsonText text).result = .ok r) :
    ∃ j, Json.IsTextOf text j ∧ ∀ {j' text'}, ReflTransGen Json.Edit j j' →
      Json.IsTextOf text' j' → (Root.ofJsonText text').result = .ok r := by
  obtain ⟨j, htext, hkind, hr⟩ := Root.ofJsonText_eq_ok_iff.1 h
  refine ⟨j, htext, fun {j' text'} hedits htext' => ?_⟩
  obtain ⟨hkind', hr'⟩ := Node.ofJson_of_edits hedits hkind hr
  exact Root.ofJsonText_eq_ok_iff.2 ⟨j', htext', hkind', hr'⟩

namespace Json

/-- Edits of a child are edits of the node. -/
lemma edits_child {j j' : Json} (h : ReflTransGen Edit j j') (before after : List (String × Json))
    (items items' : List Json) :
    ReflTransGen Edit (object (before ++ ("children", array (items ++ j :: items')) :: after))
      (object (before ++ ("children", array (items ++ j' :: items')) :: after)) :=
  ReflTransGen.lift
    (fun j => object (before ++ ("children", array (items ++ j :: items')) :: after))
    (fun _ _ => Edit.child) _ _ h

/-- A document with an empty paragraph and an empty text, in which everything is written that
can be left out. -/
def plainDocument : Json :=
  object [("type", string "root"), ("children", array [
    object [("type", string "element"), ("tagName", string "p"),
      ("properties", object [("id", string "x"), ("hidden", bool true)]), ("children", array [])],
    object [("type", string "text"), ("value", string "")]])]

/-- The same document with its members in another order, with members that do not belong to
its nodes, among them children of the text, and without what can be left out. -/
def editedDocument : Json :=
  object [("children", array [
    object [("value", string "v"),
      ("properties", object [("hidden", bool true), ("id", string "x")]),
      ("tagName", string "p"), ("type", string "element")],
    object [("children", bool false), ("children", null), ("type", string "text")]]),
    ("type", string "root"), ("data", null), ("data", array [])]

lemma edits_plainDocument : ReflTransGen Edit plainDocument editedDocument := by
  have hparagraph : ReflTransGen Edit
      (object [("type", string "element"), ("tagName", string "p"),
        ("properties", object [("id", string "x"), ("hidden", bool true)]),
        ("children", array [])])
      (object [("value", string "v"),
        ("properties", object [("hidden", bool true), ("id", string "x")]),
        ("tagName", string "p"), ("type", string "element")]) := by
    refine .head (@Edit.permuteProperties [("type", string "element"), ("tagName", string "p")]
      [("children", array [])] _ _ (.swap ("hidden", bool true) ("id", string "x") [])
      (by decide)) ?_
    refine .head (@Edit.drop [("type", string "element"), ("tagName", string "p"),
      ("properties", object [("hidden", bool true), ("id", string "x")])] [] .children _
      .children) ?_
    refine .head (@Edit.insert [] _ "value" (string "v")
      ⟨by decide, string "element", .element, .head _, rfl, by decide⟩) ?_
    exact .single (.permute (.cons _ (List.reverse_perm [("properties", _), ("tagName", _),
      ("type", _)])))
  have htext : ReflTransGen Edit (object [("type", string "text"), ("value", string "")])
      (object [("children", bool false), ("children", null), ("type", string "text")]) := by
    refine .head (@Edit.drop [("type", string "text")] [] .value _ .value) ?_
    refine .head (@Edit.insert [] _ "children" null
      ⟨by decide, string "text", .text, .head _, rfl, by decide⟩) ?_
    exact .single (@Edit.insert [] _ "children" (bool false)
      ⟨by decide, string "text", .text, .tail _ (.head _), rfl, by decide⟩)
  refine (edits_child hparagraph [("type", string "root")] [] [] _).trans ?_
  refine (edits_child htext [("type", string "root")] [] [_] []).trans ?_
  refine .head (@Edit.insert [] _ "data" null
    ⟨by decide, string "root", .root, .head _, rfl, by decide⟩) ?_
  refine .head (@Edit.insert [] _ "data" (array [])
    ⟨by decide, string "root", .root, .tail _ (.head _), rfl, by decide⟩) ?_
  exact .single (.permute (List.reverse_perm [("children", _), ("type", _), ("data", _),
    ("data", _)]))

end Json

/-- Both documents are decoded alike, each from its text in a layout of its own. -/
theorem Root.ofJsonText_editedDocument :
    (Root.ofJsonText (Json.plainDocument.render .compact)).result =
        .ok ⟨[.element "p" (.ofList [("hidden", .flag true), ("id", .text "x")]) [],
          .text ""]⟩ ∧
      (Root.ofJsonText (Json.editedDocument.render .pretty)).result =
        .ok ⟨[.element "p" (.ofList [("hidden", .flag true), ("id", .text "x")]) [],
          .text ""]⟩ := by
  have htext : Json.IsTextOf (Json.plainDocument.render .compact) _ :=
    Json.isTextOf_render .compact (by simp [Json.plainDocument, Json.Readable,
      Json.ReadableItems, Json.ReadableMembers]) (by decide)
  have htext' : Json.IsTextOf (Json.editedDocument.render .pretty) _ :=
    Json.isTextOf_render .pretty (by simp [Json.editedDocument, Json.Readable,
      Json.ReadableItems, Json.ReadableMembers]) (by decide)
  have hplain : Json.plainDocument.reread = Json.plainDocument := by
    simp [Json.plainDocument, Json.reread, Json.rereadItems, Json.rereadMembers]
  have hedited : Json.editedDocument.reread = Json.editedDocument := by
    simp [Json.editedDocument, Json.reread, Json.rereadItems, Json.rereadMembers]
  rw [hplain] at htext
  rw [hedited] at htext'
  have hread := Root.ofJsonText_eq_ok_iff.2 ⟨_, htext, ⟨"root", rfl⟩,
    (show (Node.ofJson Json.plainDocument).result = .ok (Root.node ⟨[.element "p"
      (.ofList [("hidden", .flag true), ("id", .text "x")]) [], .text ""]⟩) from rfl)⟩
  obtain ⟨j, hj, hall⟩ := Root.ofJsonText_of_edits hread
  obtain rfl := hj.unique htext
  exact ⟨hread, hall Json.edits_plainDocument htext'⟩

end FencedCode
