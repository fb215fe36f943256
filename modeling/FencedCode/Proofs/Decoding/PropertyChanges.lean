import FencedCode.Proofs.Decoding.Lenient
import FencedCode.Proofs.Decoding.Outermost

/-!
# One property changes

Whatever the value of one property gives way to, a document is decoded as before or not at
all as before, and nothing else of it changes, `Properties.decoded_leniently`.  Only a text
can do what a value cannot: open more arrays and objects than the reader allows,
`deepProperty_not_decoded`.
-/

namespace FencedCode

/-- Two outcomes are alike: there are results that are related, or none at all. -/
def Alike {ε α : Type} (R : α → α → Prop) (x y : Except ε α) : Prop :=
  (∃ a b, x = .ok a ∧ y = .ok b ∧ R a b) ∨ (∀ a, x ≠ .ok a) ∧ ∀ b, y ≠ .ok b

/-- Outcomes are alike if each has a result for the other's. -/
lemma alike_of_forall {ε α : Type} {R : α → α → Prop} {x y : Except ε α}
    (h : ∀ a, x = .ok a → ∃ b, y = .ok b ∧ R a b) (h' : ∀ b, y = .ok b → ∃ a, x = .ok a) :
    Alike R x y := by
  by_cases hx : ∃ a, x = .ok a
  · obtain ⟨a, ha⟩ := hx
    obtain ⟨b, hb, hR⟩ := h a ha
    exact .inl ⟨a, b, ha, hb, hR⟩
  · exact .inr ⟨fun a ha => hx ⟨a, ha⟩, fun b hb => hx (h' b hb)⟩

namespace Json

/-- The value of one property of one element gives way to another, `name` being the name of
the property.  The element and the nodes above it are objects or arrays. -/
inductive PropertyChanged (name : String) : Json → Json → Prop where
  /-- A property of an element that is an object. -/
  | inObject {before after properties properties' : List (String × Json)} (j j' : Json) :
      PropertyChanged name
        (object (before ++ ("properties", object (properties ++ (name, j) :: properties')) ::
          after))
        (object (before ++ ("properties", object (properties ++ (name, j') :: properties')) ::
          after))
  /-- A property of an element that is an array. -/
  | inArray {tag tagName : Json} {properties properties' : List (String × Json)}
      {after : List Json} (j j' : Json) :
      PropertyChanged name
        (array (tag :: tagName :: object (properties ++ (name, j) :: properties') :: after))
        (array (tag :: tagName :: object (properties ++ (name, j') :: properties') :: after))
  /-- A child of a node that is an object. -/
  | belowObject {before after : List (String × Json)} {items items' : List Json} {j j' : Json}
      (h : PropertyChanged name j j') :
      PropertyChanged name
        (object (before ++ ("children", array (items ++ j :: items')) :: after))
        (object (before ++ ("children", array (items ++ j' :: items')) :: after))
  /-- A child of a root that is an array. -/
  | belowRoot {tag : Json} {items items' after : List Json} {j j' : Json}
      (hroot : Node.kindOfJson tag = .ok .root) (h : PropertyChanged name j j') :
      PropertyChanged name (array (tag :: array (items ++ j :: items') :: after))
        (array (tag :: array (items ++ j' :: items') :: after))
  /-- A child of an element that is an array. -/
  | belowElement {tag tagName properties : Json} {items items' after : List Json} {j j' : Json}
      (h : PropertyChanged name j j') :
      PropertyChanged name
        (array (tag :: tagName :: properties :: array (items ++ j :: items') :: after))
        (array (tag :: tagName :: properties :: array (items ++ j' :: items') :: after))

lemma PropertyChanged.symm {name : String} {j j' : Json} (h : PropertyChanged name j j') :
    PropertyChanged name j' j := by
  induction h with
  | inObject j j' => exact .inObject j' j
  | inArray j j' => exact .inArray j' j
  | belowObject _ ih => exact .belowObject ih
  | belowRoot hroot _ ih => exact .belowRoot hroot ih
  | belowElement _ ih => exact .belowElement ih

end Json

namespace Node

/-- Two nodes are the same, but for one property of one element. -/
inductive DifferAt (name : String) : Node → Node → Prop where
  | same (n : Node) : DifferAt name n n
  | here {tag : String} {p q : Properties} {children : List Node}
      (h : ∀ other, other ≠ name → p.get? other = q.get? other) :
      DifferAt name (element tag p children) (element tag q children)
  | inRoot {before after : List Node} {n n' : Node} (h : DifferAt name n n') :
      DifferAt name (root (before ++ n :: after)) (root (before ++ n' :: after))
  | inElement {tag : String} {p : Properties} {before after : List Node} {n n' : Node}
      (h : DifferAt name n n') :
      DifferAt name (element tag p (before ++ n :: after)) (element tag p (before ++ n' :: after))

variable {name : String} {k : Kind} {F : Fields} {before after : List (String × Json)}
  {j j' : Json} {n : Node}

/-! ## Fields -/

/-- Other properties make another element, and nothing of other nodes. -/
lemma exists_ofFields_put_properties {p q : Properties} (hp : F.properties = some p)
    (hpq : ∀ other, other ≠ name → p.get? other = q.get? other)
    (h : (ofFields k F).result = .ok n) :
    ∃ n', (ofFields k (F.put .properties { properties := some q })).result = .ok n' ∧
      n.DifferAt name n' := by
  obtain ⟨tag, properties, children, value⟩ := F
  obtain rfl : properties = some p := hp
  cases k with
  | element =>
    cases tag with
    | none => cases h
    | some tag =>
      cases h
      exact ⟨_, rfl, .here hpq⟩
  | root => exact ⟨n, h, .same n⟩
  | text => exact ⟨n, h, .same n⟩
  | comment => exact ⟨n, h, .same n⟩
  | doctype => exact ⟨n, h, .same n⟩

/-- Another child makes another root or element, and nothing of other nodes. -/
lemma exists_ofFields_put_children {nodes nodes' : List Node} {m m' : Node}
    (hF : F.children = some (nodes ++ m :: nodes')) (hm : m.DifferAt name m')
    (h : (ofFields k F).result = .ok n) :
    ∃ n', (ofFields k (F.put .children { children := some (nodes ++ m' :: nodes') })).result =
        .ok n' ∧ n.DifferAt name n' := by
  obtain ⟨tag, properties, children, value⟩ := F
  obtain rfl : children = some (nodes ++ m :: nodes') := hF
  cases k with
  | element =>
    cases tag with
    | none => cases h
    | some tag =>
      cases h
      exact ⟨_, rfl, .inElement hm⟩
  | root =>
    cases h
    exact ⟨_, rfl, .inRoot hm⟩
  | text => exact ⟨n, h, .same n⟩
  | comment => exact ⟨n, h, .same n⟩
  | doctype => exact ⟨n, h, .same n⟩

/-! ## One node -/

/-- If a property gives way to another, a node is decoded with the other. -/
lemma exists_ofJson_of_properties {members members' : List (String × Json)}
    (hmembers : ∀ other, other ≠ name →
      (Properties.ofMembers members).get? other = (Properties.ofMembers members').get? other)
    (h : (ofJson (.object (before ++ ("properties", .object members) :: after))).result =
      .ok n) :
    ∃ n', (ofJson (.object (before ++ ("properties", .object members') :: after))).result =
      .ok n' ∧ n.DifferAt name n' := by
  rcases exists_ofJson_of_field (f := .properties) (.object members') h with
    hsame | ⟨k, F, hread, hn, hother⟩
  · exact ⟨n, hsame, .same n⟩
  · have hF : some (Properties.ofMembers members) = F.properties :=
      congrArg Fields.properties (Except.ok.inj hread)
    obtain ⟨n', hn', hdiffer⟩ := exists_ofFields_put_properties hF.symm hmembers hn
    exact ⟨n', hother rfl hn', hdiffer⟩

/-- If a child gives way to another, a node is decoded with the other. -/
lemma exists_ofJson_of_child {items items' : List Json}
    (hchild : ∀ n, (ofJson j).result = .ok n →
      ∃ n', (ofJson j').result = .ok n' ∧ n.DifferAt name n')
    (h : (ofJson (.object (before ++ ("children", .array (items ++ j :: items')) ::
      after))).result = .ok n) :
    ∃ n', (ofJson (.object (before ++ ("children", .array (items ++ j' :: items')) ::
      after))).result = .ok n' ∧ n.DifferAt name n' := by
  rcases exists_ofJson_of_field (f := .children) (.array (items ++ j' :: items')) h with
    hsame | ⟨k, F, hread, hn, hother⟩
  · exact ⟨n, hsame, .same n⟩
  · obtain ⟨nodes, hnodes, hF⟩ := Logged.exists_of_result_bind hread
    obtain ⟨ms, m, ms', rfl, hms, hm, hms'⟩ := ofJsons_append_cons_eq_ok_iff.1 hnodes
    obtain ⟨m', hm', hdiffer⟩ := hchild m hm
    -- The siblings are decoded as before.
    have hF' : some (ms ++ m :: ms') = F.children :=
      congrArg Fields.children (Except.ok.inj hF)
    obtain ⟨n', hn', hdiffer'⟩ := exists_ofFields_put_children hF'.symm hdiffer hn
    have hnodes' := ofJsons_append_cons_eq_ok_iff.2 ⟨ms, m', ms', rfl, hms, hm', hms'⟩
    have hread' : (readField {} .children (.array (items ++ j' :: items'))).result =
        .ok { children := some (ms ++ m' :: ms') } :=
      Logged.result_bind_of_ok hnodes' _
    exact ⟨n', hother hread' hn', hdiffer'⟩

/-- If the items of an array give way to others, the node is decoded with the others if the
object is that lists both with their names. -/
lemma exists_ofJson_of_items {tag : Json} {items items' : List Json}
    (hlength : items'.length = items.length)
    (hobject : ∀ k, kindOfJson tag = .ok k → items.length ≤ (Field.ofKind k).length → ∀ n,
      (ofJson (.object (("type", tag) ::
        ((Field.ofKind k).map Field.name).zip items))).result = .ok n →
      ∃ n', (ofJson (.object (("type", tag) ::
        ((Field.ofKind k).map Field.name).zip items'))).result = .ok n' ∧ n.DifferAt name n')
    (h : (ofJson (.array (tag :: items))).result = .ok n) :
    ∃ n', (ofJson (.array (tag :: items'))).result = .ok n' ∧ n.DifferAt name n' := by
  obtain ⟨k, hk, hitems, hn⟩ := ofJson_array_eq_ok_iff.1 h
  obtain ⟨n', hn', hdiffer⟩ := hobject k hk hitems n hn
  exact ⟨n', ofJson_array_eq_ok_iff.2 ⟨k, hk, hlength ▸ hitems, hn'⟩, hdiffer⟩

/-- Only an element has more than one field. -/
lemma eq_element_of_two_le {k : Kind} (h : 2 ≤ (Field.ofKind k).length) : k = .element := by
  cases k <;> simp [Field.ofKind] at h ⊢

/-! ## Whole documents -/

/-- If one property gives way to another, a document is decoded with the other. -/
lemma exists_ofJson_of_propertyChanged (hchange : Json.PropertyChanged name j j')
    (h : (ofJson j).result = .ok n) :
    ∃ n', (ofJson j').result = .ok n' ∧ n.DifferAt name n' := by
  -- The induction is on the way from the node to the property.  An array is decoded like the
  -- object that gives its items the names of the fields.
  induction hchange generalizing n with
  | inObject j j' =>
    exact exists_ofJson_of_properties
      (fun other hother => Properties.get?_ofMembers_of_ne hother _ _ j j') h
  | @inArray tag tagName _ _ _ j j' =>
    refine exists_ofJson_of_items (by simp) (fun k hk hlength n hn => ?_) h
    obtain rfl := eq_element_of_two_le (Nat.le_trans (by simp) hlength)
    exact @exists_ofJson_of_properties name [("type", tag), ("tagName", tagName)] _ n _ _
      (fun other hother => Properties.get?_ofMembers_of_ne hother _ _ j j') hn
  | belowObject _ ih => exact exists_ofJson_of_child (fun _ hn => ih hn) h
  | @belowRoot tag _ _ _ j j' hroot _ ih =>
    refine exists_ofJson_of_items (by simp) (fun k hk hlength n hn => ?_) h
    obtain rfl : .root = k := Except.ok.inj (hroot.symm.trans hk)
    exact @exists_ofJson_of_child name [("type", tag)] _ j j' n _ _ (fun _ hn => ih hn) hn
  | @belowElement tag tagName properties _ _ _ j j' _ ih =>
    refine exists_ofJson_of_items (by simp) (fun k hk hlength n hn => ?_) h
    obtain rfl := eq_element_of_two_le (Nat.le_trans (by simp) hlength)
    exact @exists_ofJson_of_child name [("type", tag), ("tagName", tagName),
      ("properties", properties)] _ j j' n _ _ (fun _ hn => ih hn) hn

/-- A change leaves how the kind is said. -/
lemma namesKind_of_propertyChanged (hchange : Json.PropertyChanged name j j')
    (h : j.NamesKind) : j'.NamesKind := by
  obtain ⟨s, hs⟩ := h
  refine ⟨s, ?_⟩
  cases hchange with
  | inObject j j' =>
    rw [Json.tags, typeValues_append_cons_of_ne (by decide)] at hs ⊢
    exact hs
  | inArray j j' => exact hs
  | belowObject _ =>
    rw [Json.tags, typeValues_append_cons_of_ne (by decide)] at hs ⊢
    exact hs
  | belowRoot _ _ => exact hs
  | belowElement _ => exact hs

/-- A root differs from roots only. -/
lemma DifferAt.exists_root {r : Root} {n : Node} (h : r.node.DifferAt name n) :
    ∃ r' : Root, n = r'.node := by
  obtain ⟨children⟩ := r
  cases h with
  | same => exact ⟨⟨children⟩, rfl⟩
  | inRoot h => exact ⟨⟨_⟩, rfl⟩

end Node

/-! ## The main result -/

/-- A changed document is decoded if the document is. -/
lemma Root.exists_ofJsonText_of_propertyChanged {name text text' : String} {j j' : Json}
    (htext : Json.IsTextOf text j) (htext' : Json.IsTextOf text' j')
    (hchange : Json.PropertyChanged name j j') {r : Root}
    (h : (Root.ofJsonText text).result = .ok r) :
    ∃ r', (Root.ofJsonText text').result = .ok r' ∧ r.node.DifferAt name r'.node := by
  obtain ⟨j₀, hj₀, hkind, hr⟩ := Root.ofJsonText_eq_ok_iff.1 h
  obtain rfl := hj₀.unique htext
  obtain ⟨n, hn, hdiffer⟩ := Node.exists_ofJson_of_propertyChanged hchange hr
  obtain ⟨r', rfl⟩ := hdiffer.exists_root
  exact ⟨r', Root.ofJsonText_eq_ok_iff.2
    ⟨j', htext', Node.namesKind_of_propertyChanged hchange hkind, hn⟩, hdiffer⟩

/-- **Properties are decoded leniently.**  The members of an object and `null` are decoded
whatever they hold, and a name has the value that the last member with this name describes;
values with finite numbers describe none exactly if they are `null`, an object or an array
with one of these or an array in it.  So if one property of a document gives way to another,
both documents are decoded and are the same apart from this property, or none of them is; and
so it is with their texts. -/
theorem Properties.decoded_leniently :
    (∀ members : List (String × Json), ∃ p, (Properties.ofJson (.object members)).result =
        .ok p ∧ ∀ name v, p.get? name = some v ↔
          ∃ before j after, members = before ++ (name, j) :: after ∧
            (∀ m ∈ after, m.1 ≠ name) ∧ PropertyValue.Describes j v) ∧
      (Properties.ofJson .null).result = .ok {} ∧
      (∀ j : Json, j.AllFinite →
        ((∀ v, ¬PropertyValue.Describes j v) ↔ PropertyValue.IsDropped j)) ∧
      (∀ (name : String) (j j' : Json), Json.PropertyChanged name j j' →
        Alike (Node.DifferAt name) (Node.ofJson j).result (Node.ofJson j').result) ∧
      ∀ (name text text' : String) (j j' : Json), Json.PropertyChanged name j j' →
        Json.IsTextOf text j → Json.IsTextOf text' j' →
          Alike (fun r r' : Root => r.node.DifferAt name r'.node)
            (Root.ofJsonText text).result (Root.ofJsonText text').result := by
  refine ⟨fun members => ⟨Properties.ofMembers members, rfl, fun name v => ?_⟩, rfl,
    fun j hj => PropertyValue.not_exists_describes_iff hj, fun name j j' hchange => ?_,
    fun name text text' j j' hchange htext htext' => ?_⟩
  · exact Properties.get?_ofMembers_eq_some_iff
  · refine alike_of_forall (fun n hn => ?_) fun n' hn' => ?_
    · exact Node.exists_ofJson_of_propertyChanged hchange hn
    · obtain ⟨n, hn, -⟩ := Node.exists_ofJson_of_propertyChanged hchange.symm hn'
      exact ⟨n, hn⟩
  · refine alike_of_forall (fun r hr => ?_) fun r' hr' => ?_
    · exact Root.exists_ofJsonText_of_propertyChanged htext htext' hchange hr
    · obtain ⟨r, hr, -⟩ :=
        Root.exists_ofJsonText_of_propertyChanged htext' htext hchange.symm hr'
      exact ⟨r, hr⟩

/-! ## Deep properties -/

namespace Json

/-- So many arrays in each other. -/
def nested : Nat → Json
  | 0 => null
  | n + 1 => array [nested n]

lemma depth_nested (n : Nat) : (nested n).depth = n := by
  induction n with
  | zero => rfl
  | succ n ih => simp [nested, depth, depthOfItems, ih]

lemma readable_nested (n : Nat) : (nested n).Readable := by
  induction n with
  | zero => exact trivial
  | succ n ih => exact ⟨ih, trivial⟩

lemma reread_nested (n : Nat) : (nested n).reread = nested n := by
  induction n with
  | zero => exact reread_null
  | succ n ih => simp [nested, reread, rereadItems, ih]

/-- A document with an element that has a property of this value. -/
def deepDocument (j : Json) : Json :=
  object [("type", string "root"), ("children", array [
    object [("type", string "element"), ("tagName", string "p"),
      ("properties", object [("id", string "x"), ("deep", j)])]])]

lemma depth_deepDocument (n : Nat) : (deepDocument (nested n)).depth = n + 4 := by
  simp [deepDocument, depth, depthOfItems, depthOfMembers, depth_nested]

lemma readable_deepDocument (n : Nat) : (deepDocument (nested n)).Readable := by
  simp [deepDocument, Readable, ReadableItems, ReadableMembers, readable_nested]

lemma propertyChanged_deepDocument (j j' : Json) :
    PropertyChanged "deep" (deepDocument j) (deepDocument j') :=
  @PropertyChanged.belowObject "deep" [("type", _)] [] [] [] _ _
    (@PropertyChanged.inObject "deep" [("type", _), ("tagName", _)] [] [("id", _)] [] j j')

lemma isTextOf_deepDocument {n : Nat} (h : n + 4 ≤ maxDepth) :
    IsTextOf ((deepDocument (nested n)).render .compact) (deepDocument (nested n)) := by
  have hreread : (deepDocument (nested n)).reread = deepDocument (nested n) := by
    simp [deepDocument, reread, rereadItems, rereadMembers, reread_nested]
  have htext := isTextOf_render .compact (readable_deepDocument n)
    (by rwa [depth_deepDocument])
  rwa [hreread] at htext

end Json

/-- The document in which the property is `null` is decoded. -/
lemma Root.ofJsonText_deepDocument :
    (Root.ofJsonText ((Json.deepDocument .null).render .compact)).result =
      .ok ⟨[.element "p" (.ofList [("id", .text "x")]) []]⟩ :=
  Root.ofJsonText_eq_ok_iff.2 ⟨_, @Json.isTextOf_deepDocument 0 (by decide), ⟨"root", rfl⟩,
    (show (Node.ofJson (Json.deepDocument .null)).result =
      .ok (Root.node ⟨[.element "p" (.ofList [("id", .text "x")]) []]⟩) from rfl)⟩

/-- A name whose last value is `null` has no value, whatever was said before, and a list is
made of texts.  As many arrays as the reader allows in a property leave all else as it is. -/
theorem Properties.decoded_leniently_deepDocument :
    (∃ p, (Properties.ofJson (.object [("a", .string "x"),
        ("b", .array [.number (.integer 1), .bool true, .string "s"]), ("a", .null)])).result =
          .ok p ∧ p.get? "b" = some (.list ["1", "true", "s"]) ∧ ∀ v, p.get? "a" ≠ some v) ∧
      (∀ v, ¬PropertyValue.Describes (Json.nested 2) v) ∧
      ∃ r r', (Root.ofJsonText ((Json.deepDocument .null).render .compact)).result = .ok r ∧
        (Root.ofJsonText ((Json.deepDocument (Json.nested 123)).render .compact)).result =
          .ok r' ∧ r.node.DifferAt "deep" r'.node := by
  obtain ⟨hmembers, -, hdropped, -, htexts⟩ := Properties.decoded_leniently
  refine ⟨?_, ?_, ?_⟩
  · obtain ⟨p, hp, hget⟩ := hmembers [("a", .string "x"),
      ("b", .array [.number (.integer 1), .bool true, .string "s"]), ("a", .null)]
    refine ⟨p, hp, (hget _ _).2 ⟨[_], _, [_], rfl, by simp, ?_⟩, fun v hv => ?_⟩
    · exact .array (.cons (@PropertyValue.ItemText.number _ ['1'] (by decide +kernel))
        (.cons (.bool true) (.cons (.string "s") .nil)))
    · obtain ⟨before, j, after, hlist, hafter, hj⟩ := (hget _ _).1 hv
      have hlast : some ("a", Json.null) = (before ++ ("a", j) :: after).getLast? :=
        congrArg List.getLast? hlist
      rcases List.eq_nil_or_concat after with rfl | ⟨others, m, rfl⟩
      · rw [List.getLast?_concat] at hlast
        cases hlast
        cases hj
      · have hm : before ++ ("a", j) :: others.concat m =
            (before ++ ("a", j) :: others) ++ [m] := by simp
        rw [hm, List.getLast?_concat] at hlast
        cases hlast
        exact hafter ("a", .null) (by simp) rfl
  · refine (hdropped _ (.array ?_)).2 (.array (List.mem_singleton.2 rfl) trivial)
    exact List.forall_mem_singleton.2 (.array (List.forall_mem_singleton.2 .null))
  · rcases htexts "deep" _ _ _ _ (Json.propertyChanged_deepDocument .null (Json.nested 123))
      (@Json.isTextOf_deepDocument 0 (by decide)) (Json.isTextOf_deepDocument (by decide)) with
      h | ⟨hnone, -⟩
    · exact h
    · exact absurd Root.ofJsonText_deepDocument (hnone _)

/-- One array more is too much for the reader: the text of a document is decoded, and it is
not any more if a property gives way to a value that is so deep. -/
theorem deepProperty_not_decoded :
    Json.PropertyChanged "deep" (Json.deepDocument .null) (Json.deepDocument (Json.nested 124)) ∧
      (Root.ofJsonText ((Json.deepDocument .null).render .compact)).result =
        .ok ⟨[.element "p" (.ofList [("id", .text "x")]) []]⟩ ∧
      ∀ r, (Root.ofJsonText ((Json.deepDocument (Json.nested 124)).render .compact)).result ≠
        .ok r := by
  refine ⟨Json.propertyChanged_deepDocument _ _, Root.ofJsonText_deepDocument, fun r hr => ?_⟩
  obtain ⟨j, hj, -⟩ := Root.ofJsonText_eq_ok_iff.1 hr
  have hdepth : Json.maxDepth < (Json.deepDocument (Json.nested 124)).depth := by
    rw [Json.depth_deepDocument]
    decide
  exact Json.not_isTextOf_render .compact (Json.readable_deepDocument 124) hdepth j hj

end FencedCode
