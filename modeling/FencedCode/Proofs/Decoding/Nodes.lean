import FencedCode.Proofs.Decoding.Members

/-!
# Nodes and what their members say

A node is decoded exactly if there is one member `type`, which says the kind, and for each
field of the kind there is no member or one, whose value is decoded alone,
`ofJson_object_eq_ok_iff`.  So the order of the members does not count, members of other
names do not, and the value of a field can be replaced without touching the rest.
-/

namespace FencedCode

namespace Node

/-- What the members of an object say: the kind of a node and its fields. -/
structure Says (members : List (String × Json)) (k : Kind) (F : Fields) : Prop where
  /-- There is one member `type`, and it says the kind. -/
  kind : ∃ tag, typeValues members = [tag] ∧ kindOfJson tag = .ok k
  /-- Each field comes from its own members. -/
  field : ∀ f, TakesField k members {} F f

/-- **A node is decoded member by member**, whatever the order of the members. -/
theorem ofJson_object_eq_ok_iff {members : List (String × Json)} {n : Node} :
    (ofJson (.object members)).result = .ok n ↔
      ∃ k F, Says members k F ∧ (ofFields k F).result = .ok n := by
  rw [ofJson]
  constructor
  · intro h
    obtain ⟨k, hk, h⟩ := Logged.exists_of_result_bind h
    obtain ⟨F, hF, h⟩ := Logged.exists_of_result_bind h
    exact ⟨k, F, ⟨kindOfMembers_eq_ok_iff.1 hk, readMembers_eq_ok_iff.1 hF⟩, h⟩
  · rintro ⟨k, F, ⟨hk, hF⟩, h⟩
    have hkind : (Logged.ofExcept (kindOfMembers none members)).result = .ok k :=
      kindOfMembers_eq_ok_iff.2 hk
    rw [Logged.result_bind_of_ok hkind, Logged.result_bind_of_ok (readMembers_eq_ok_iff.2 hF)]
    exact h

/-- Several nodes are decoded one by one. -/
lemma ofJsons_eq_ok_iff {items : List Json} {nodes : List Node} :
    (ofJsons items).result = .ok nodes ↔
      List.Forall₂ (fun j n => (ofJson j).result = .ok n) items nodes := by
  induction items generalizing nodes with
  | nil =>
    rw [List.forall₂_nil_left_iff, ofJsons]
    exact ⟨fun h => (Except.ok.inj h).symm, fun h => congrArg Except.ok h.symm⟩
  | cons j rest ih =>
    rw [ofJsons]
    constructor
    · intro h
      obtain ⟨n, hn, h⟩ := Logged.exists_of_result_bind h
      obtain ⟨others, hothers, h⟩ := Logged.exists_of_result_bind h
      cases h
      exact .cons hn (ih.1 hothers)
    · rintro (_ | ⟨hn, hothers⟩)
      rw [Logged.result_bind_of_ok hn, Logged.result_bind_of_ok (ih.2 hothers)]
      rfl

/-- A node among several is decoded alone. -/
lemma ofJsons_append_cons_eq_ok_iff {items items' : List Json} {j : Json} {nodes : List Node} :
    (ofJsons (items ++ j :: items')).result = .ok nodes ↔
      ∃ before n after, nodes = before ++ n :: after ∧ (ofJsons items).result = .ok before ∧
        (ofJson j).result = .ok n ∧ (ofJsons items').result = .ok after := by
  induction items generalizing nodes with
  | nil =>
    simp only [List.nil_append, ofJsons_eq_ok_iff, List.forall₂_cons_left_iff,
      List.forall₂_nil_left_iff]
    constructor
    · rintro ⟨n, after, hn, hafter, rfl⟩
      exact ⟨[], n, after, rfl, rfl, hn, hafter⟩
    · rintro ⟨_, n, after, rfl, rfl, hn, hafter⟩
      exact ⟨n, after, hn, hafter, rfl⟩
  | cons first items ih =>
    simp only [ofJsons_eq_ok_iff, List.cons_append, List.forall₂_cons_left_iff] at ih ⊢
    constructor
    · rintro ⟨m, rest, hm, hrest, rfl⟩
      obtain ⟨before, n, after, rfl, hbefore, hn, hafter⟩ := ih.1 hrest
      exact ⟨m :: before, n, after, rfl, ⟨m, before, hm, hbefore, rfl⟩, hn, hafter⟩
    · rintro ⟨_, n, after, rfl, ⟨m, before, hm, hbefore, rfl⟩, hn, hafter⟩
      exact ⟨m, before ++ n :: after, hm, ih.2 ⟨before, n, after, rfl, hbefore, hn, hafter⟩, rfl⟩

/-! ## Changing members -/

section Changes

variable {k : Kind} {F G : Fields} {name : String} {j j' : Json}

/-- There is one member `type` only, so that its value is the one that says the kind. -/
lemma Says.kind_eq {members : List (String × Json)} (h : Says members k F) {tag : Json}
    (htag : ("type", tag) ∈ members) {k' : Kind} (hk' : kindOfJson tag = .ok k') : k' = k := by
  obtain ⟨tag', htag', hk⟩ := h.kind
  have hmem : tag ∈ typeValues members := by
    simpa [typeValues, valuesWhere] using htag
  rw [htag', List.mem_singleton] at hmem
  rw [hmem, hk] at hk'
  exact (Except.ok.inj hk').symm

/-- The order of the members does not count. -/
lemma Says.perm {members members' : List (String × Json)} (h : Says members k F)
    (hperm : members.Perm members') : Says members' k F := by
  obtain ⟨tag, htag, hk⟩ := h.kind
  exact ⟨⟨tag, valuesWhere_eq_singleton_of_perm hperm htag, hk⟩,
    fun f => (h.field f).perm hperm⟩

/-- A member that says neither the kind nor a field does not count. -/
lemma says_cons_of_none (htype : name ≠ "type") (hname : Field.ofName? k name = none)
    {rest : List (String × Json)} : Says ((name, j) :: rest) k F ↔ Says rest k F := by
  have hkind := typeValues_cons_of_ne htype j rest
  constructor
  · rintro ⟨h, hfields⟩
    exact ⟨by rwa [hkind] at h, fun f => (takesField_cons_of_none hname).1 (hfields f)⟩
  · rintro ⟨h, hfields⟩
    exact ⟨by rwa [hkind], fun f => (takesField_cons_of_none hname).2 (hfields f)⟩

/-- What comes from a member that holds a field comes from no other. -/
lemma takesField_cons_self_iff_put {f : Field} (hname : Field.ofName? k name = some f)
    {rest : List (String × Json)} :
    TakesField k ((name, j) :: rest) {} F f ↔
      (readField {} f j).result = .ok (F.only f) ∧ TakesField k rest {} (F.put f {}) f := by
  have hempty : ∀ j', (readField {} f j').result ≠ .ok {} := by
    intro j' hread
    have hhas := (only_of_readField hread).2
    rw [Fields.has_empty] at hhas
    cases hhas
  rw [takesField_cons_self hname, TakesField, F.only_put_self, Fields.has_empty,
    Fields.only_empty]
  simp [hempty, and_comm]

/-- A member that holds a field is decoded alone, and all else comes from the others. -/
lemma says_cons_of_some {f : Field} (hname : Field.ofName? k name = some f)
    {rest : List (String × Json)} :
    Says ((name, j) :: rest) k F ↔
      (readField {} f j).result = .ok (F.only f) ∧ Says rest k (F.put f {}) := by
  have hkind : typeValues ((name, j) :: rest) = typeValues rest := by
    obtain ⟨-, rfl⟩ := Field.ofName?_eq_some_iff.1 hname
    exact typeValues_cons_of_ne f.name_ne_type j rest
  have hself : TakesField k ((name, j) :: rest) {} F f ↔ _ := takesField_cons_self_iff_put hname
  have hothers : ∀ g, g ≠ f →
      (TakesField k ((name, j) :: rest) {} F g ↔ TakesField k rest {} (F.put f {}) g) := by
    intro g hg
    rw [takesField_cons_of_ne hname hg, TakesField, TakesField, F.only_put_of_ne hg]
  constructor
  · rintro ⟨h, hfields⟩
    refine ⟨(hself.1 (hfields f)).1, by rwa [hkind] at h, fun g => ?_⟩
    by_cases hg : g = f
    · exact hg ▸ (hself.1 (hfields f)).2
    · exact (hothers g hg).1 (hfields g)
  · rintro ⟨hread, h, hfields⟩
    refine ⟨by rwa [hkind], fun g => ?_⟩
    by_cases hg : g = f
    · exact hg ▸ hself.2 ⟨hread, hfields f⟩
    · exact (hothers g hg).2 (hfields g)

variable {before after : List (String × Json)}

/-- A member that says neither the kind nor a field does not count, wherever it stands. -/
lemma says_append_cons_of_none (htype : name ≠ "type") (hname : Field.ofName? k name = none) :
    Says (before ++ (name, j) :: after) k F ↔ Says (before ++ after) k F := by
  refine Iff.trans ⟨fun h => ?_, fun h => ?_⟩ (says_cons_of_none (j := j) htype hname)
  · exact h.perm List.perm_middle
  · exact h.perm List.perm_middle.symm

/-- A member that holds a field is decoded alone, wherever it stands. -/
lemma says_append_cons_of_some {f : Field} (hname : Field.ofName? k name = some f) :
    Says (before ++ (name, j) :: after) k F ↔
      (readField {} f j).result = .ok (F.only f) ∧ Says (before ++ after) k (F.put f {}) := by
  refine Iff.trans ⟨fun h => ?_, fun h => ?_⟩ (says_cons_of_some hname)
  · exact h.perm List.perm_middle
  · exact h.perm List.perm_middle.symm

/-- The value of a member that holds a field can be replaced by another. -/
lemma Says.replace {f : Field} (hname : Field.ofName? k name = some f)
    (h : Says (before ++ (name, j) :: after) k F)
    (hread : (readField {} f j').result = .ok G) :
    Says (before ++ (name, j') :: after) k (F.put f G) := by
  obtain ⟨-, hothers⟩ := (says_append_cons_of_some hname).1 h
  refine (says_append_cons_of_some hname).2 ⟨?_, by rwa [F.put_put]⟩
  rw [F.only_put_self, (only_of_readField hread).1]
  exact hread

/-- If the value of a member that holds a field gives way to another, the node is decoded with
the other, and without a change if the kind has no such field. -/
lemma exists_ofJson_of_field {f : Field} {n : Node} (j' : Json)
    (h : (ofJson (.object (before ++ (f.name, j) :: after))).result = .ok n) :
    (ofJson (.object (before ++ (f.name, j') :: after))).result = .ok n ∨
      ∃ k F, (readField {} f j).result = .ok (F.only f) ∧ (ofFields k F).result = .ok n ∧
        ∀ {G n'}, (readField {} f j').result = .ok G →
          (ofFields k (F.put f G)).result = .ok n' →
            (ofJson (.object (before ++ (f.name, j') :: after))).result = .ok n' := by
  obtain ⟨k, F, hsays, hn⟩ := ofJson_object_eq_ok_iff.1 h
  simp only [ofJson_object_eq_ok_iff]
  rcases f.ofName?_name k with hname | hname
  · rw [says_append_cons_of_none f.name_ne_type hname] at hsays
    exact .inl ⟨k, F, (says_append_cons_of_none f.name_ne_type hname).2 hsays, hn⟩
  · obtain ⟨hread, -⟩ := (says_append_cons_of_some hname).1 hsays
    exact .inr ⟨k, F, hread, hn, fun hread' hn' => ⟨k, _, hsays.replace hname hread', hn'⟩⟩

end Changes

/-! ## Nodes written as arrays -/

variable {k : Kind} {F G : Fields} {j : Json}

/-- Reading a field leaves whether the others are read. -/
lemma has_of_readField {f g : Field} (hg : g ≠ f) (h : (readField F f j).result = .ok G) :
    G.has g = F.has g :=
  Fields.has_congr ((readField_eq_ok_iff.1 h).2 g hg)

/-- Without items nothing is read; only the tag is missed. -/
lemma readItems_nil_eq_ok_iff {expected : List Field} {count : Nat} {n : Node}
    (hmem : ∀ f ∈ expected, f ∈ Field.ofKind k) (hfresh : ∀ f ∈ expected, F.has f = false) :
    (readItems k expected count F [] >>= ofFields k).result = .ok n ↔
      (ofFields k F).result = .ok n := by
  cases expected with
  | nil => simp [readItems]
  | cons f expected =>
    cases f with
    | tag =>
      have hnone : F.tag = none := by simpa [Fields.has] using hfresh .tag List.mem_cons_self
      have hk : k = .element := by
        have htag := hmem .tag List.mem_cons_self
        cases k <;> simp [Field.ofKind] at htag ⊢
      subst hk
      refine iff_of_false (fun h => by cases h) fun h => ?_
      simp [ofFields, hnone, misshapen] at h
    | properties => simp [readItems]
    | children => simp [readItems]
    | value => simp [readItems]

/-- An array lists the fields of a kind as members would, in their order and without names. -/
lemma readItems_eq_ok_iff {expected : List Field} {count : Nat} {items : List Json} {n : Node}
    (hmem : ∀ f ∈ expected, f ∈ Field.ofKind k) (hnodup : expected.Nodup)
    (hfresh : ∀ f ∈ expected, F.has f = false) :
    (readItems k expected count F items >>= ofFields k).result = .ok n ↔
      items.length ≤ expected.length ∧
        (readMembers k F ((expected.map Field.name).zip items) >>= ofFields k).result =
          .ok n := by
  induction items generalizing expected count F with
  | nil =>
    rw [readItems_nil_eq_ok_iff hmem hfresh]
    simp [readMembers]
  | cons j rest ih =>
    cases expected with
    | nil => exact iff_of_false (fun h => by cases h) (by simp)
    | cons f expected =>
      obtain ⟨hf, hexpected⟩ := List.nodup_cons.1 hnodup
      obtain ⟨hmemf, hmem⟩ := List.forall_mem_cons.1 hmem
      obtain ⟨hfreshf, hfresh⟩ := List.forall_mem_cons.1 hfresh
      have hname : Field.ofName? k f.name = some f :=
        Field.ofName?_eq_some_iff.2 ⟨hmemf, rfl⟩
      rw [readItems, List.map_cons, List.zip_cons_cons, readMembers, hname]
      simp only [hfreshf, Bool.false_eq_true, if_false, List.length_cons,
        Nat.add_le_add_iff_right]
      -- Both go on with the same fields, and those behind are still to be read.
      cases hread : (readField F f j).result with
      | error e => simp [Logged.result_bind, hread, Except.bind]
      | ok H =>
        have hnext : ∀ g ∈ expected, H.has g = false := by
          intro g hg
          have hne : g ≠ f := fun h => hf (h ▸ hg)
          rw [has_of_readField hne hread, hfresh g hg]
        have hrest : (readItems k expected (count + 1) H rest >>= ofFields k).result = .ok n ↔ _ :=
          ih hmem hexpected hnext
        simpa only [Logged.result_bind, hread, Except.bind] using hrest

/-- No field of an array is taken for its kind. -/
lemma typeValues_zip_eq_nil (k : Kind) (items : List Json) :
    typeValues (((Field.ofKind k).map Field.name).zip items) = [] := by
  simp only [typeValues, valuesWhere, List.map_eq_nil_iff, List.filter_eq_nil_iff]
  rintro ⟨name, j⟩ hmem
  obtain ⟨f, -, rfl⟩ := List.mem_map.1 (List.of_mem_zip hmem).1
  simp [f.name_ne_type]

/-- The member `type` holds no field. -/
lemma readMembers_cons_type (k : Kind) (F : Fields) (tag : Json) (rest : List (String × Json)) :
    readMembers k F (("type", tag) :: rest) = readMembers k F rest := by
  have hnone : Field.ofName? k "type" = none :=
    Field.ofName?_eq_none_iff.2 fun f _ => f.name_ne_type
  rw [readMembers, hnone]

/-- **A node written as an array** is decoded like the object with the same values, the first
of them being its member `type`. -/
theorem ofJson_array_eq_ok_iff {tag : Json} {items : List Json} {n : Node} :
    (ofJson (.array (tag :: items))).result = .ok n ↔
      ∃ k, kindOfJson tag = .ok k ∧ items.length ≤ (Field.ofKind k).length ∧
        (ofJson (.object (("type", tag) ::
          ((Field.ofKind k).map Field.name).zip items))).result = .ok n := by
  have hkind : ∀ k k', kindOfMembers none (("type", tag) ::
      ((Field.ofKind k).map Field.name).zip items) = .ok k' ↔ kindOfJson tag = .ok k' := by
    intro k k'
    simp [kindOfMembers_eq_ok_iff, typeValues_zip_eq_nil]
  have hitems : ∀ k, (readItems k (Field.ofKind k) 0 {} items >>= ofFields k).result = .ok n ↔
      _ := fun k =>
    readItems_eq_ok_iff (fun _ hf => hf) (by cases k <;> decide) (by simp)
  rw [ofJson]
  constructor
  · intro h
    obtain ⟨k, hk, h⟩ := Logged.exists_of_result_bind h
    obtain ⟨hlength, h⟩ := (hitems k).1 h
    refine ⟨k, hk, hlength, ?_⟩
    have hok : (Logged.ofExcept (kindOfMembers none (("type", tag) ::
      ((Field.ofKind k).map Field.name).zip items))).result = .ok k := (hkind k k).2 hk
    rw [ofJson, Logged.result_bind_of_ok hok, readMembers_cons_type]
    exact h
  · rintro ⟨k, hk, hlength, h⟩
    rw [ofJson] at h
    obtain ⟨k', hk', h⟩ := Logged.exists_of_result_bind h
    have hsame : kindOfJson tag = .ok k' := (hkind k k').1 hk'
    obtain rfl : k = k' := Except.ok.inj (hk.symm.trans hsame)
    rw [readMembers_cons_type] at h
    have hok : (Logged.ofExcept (kindOfJson tag)).result = .ok k := hk
    rw [Logged.result_bind_of_ok hok]
    exact (hitems k).2 ⟨hlength, h⟩

end Node

end FencedCode
