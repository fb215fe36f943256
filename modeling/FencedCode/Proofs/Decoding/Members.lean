import FencedCode.Proofs.Outcomes
import FencedCode.Tree.Decode

/-!
# Fields decoded member by member

Decoding goes through the members of an object in the order of the text.  What comes of it
does not depend on that order: each field comes from the members that hold it, of which
there is at most one, `readMembers_eq_ok_iff`, and the kind from the only member `type`,
`kindOfMembers_eq_ok_iff`.
-/

namespace FencedCode

/-! ## Values of members -/

/-- The values of the members whose names have a property, in the order of the text. -/
def valuesWhere (p : String → Bool) (members : List (String × Json)) : List Json :=
  (members.filter fun m => p m.1).map Prod.snd

section Values

variable {p : String → Bool}

lemma valuesWhere_cons_of_pos {name : String} (h : p name = true) (j : Json)
    (rest : List (String × Json)) :
    valuesWhere p ((name, j) :: rest) = j :: valuesWhere p rest := by
  simp [valuesWhere, h]

lemma valuesWhere_cons_of_neg {name : String} (h : p name = false) (j : Json)
    (rest : List (String × Json)) :
    valuesWhere p ((name, j) :: rest) = valuesWhere p rest := by
  simp [valuesWhere, h]

lemma valuesWhere_perm {xs ys : List (String × Json)} (h : xs.Perm ys) :
    (valuesWhere p xs).Perm (valuesWhere p ys) :=
  (h.filter _).map _

/-- The only value stays the only value when members change places. -/
lemma valuesWhere_eq_singleton_of_perm {xs ys : List (String × Json)} (h : xs.Perm ys) {j : Json}
    (hx : valuesWhere p xs = [j]) : valuesWhere p ys = [j] :=
  List.perm_singleton.1 (hx ▸ (valuesWhere_perm h).symm)

lemma valuesWhere_eq_nil_of_perm {xs ys : List (String × Json)} (h : xs.Perm ys)
    (hx : valuesWhere p xs = []) : valuesWhere p ys = [] :=
  List.perm_nil.1 (hx ▸ (valuesWhere_perm h).symm)

end Values

/-! ## Fields -/

namespace Fields

/-- What is read of one field. -/
def only (fields : Fields) : Field → Fields
  | .tag => { tag := fields.tag }
  | .properties => { properties := fields.properties }
  | .children => { children := fields.children }
  | .value => { value := fields.value }

/-- The fields with one of them taken from others. -/
def put (fields : Fields) (f : Field) (others : Fields) : Fields :=
  match f with
  | .tag => { fields with tag := others.tag }
  | .properties => { fields with properties := others.properties }
  | .children => { fields with children := others.children }
  | .value => { fields with value := others.value }

lemma ext_only {F G : Fields} (h : ∀ f, F.only f = G.only f) : F = G := by
  obtain ⟨tag, properties, children, value⟩ := F
  obtain ⟨tag', properties', children', value'⟩ := G
  have htag := h .tag
  have hproperties := h .properties
  have hchildren := h .children
  have hvalue := h .value
  simp_all [only]

@[simp] lemma only_empty (f : Field) : only {} f = {} := by
  cases f <;> rfl

@[simp] lemma only_only (F : Fields) (f : Field) : (F.only f).only f = F.only f := by
  cases f <;> rfl

lemma only_put_self (F : Fields) (f : Field) (G : Fields) : (F.put f G).only f = G.only f := by
  cases f <;> rfl

lemma only_put_of_ne (F : Fields) {f g : Field} (h : g ≠ f) (G : Fields) :
    (F.put f G).only g = F.only g := by
  cases f <;> cases g <;> first | rfl | exact absurd rfl h

lemma put_only (F : Fields) (f : Field) : F.put f (F.only f) = F := by
  cases f <;> rfl

lemma put_put (F : Fields) (f : Field) (G H : Fields) : (F.put f G).put f H = F.put f H := by
  cases f <;> rfl

@[simp] lemma has_empty (f : Field) : has {} f = false := by
  cases f <;> rfl

/-- Whether a field is read depends on what is read of it. -/
lemma has_congr {F G : Fields} {f : Field} (h : F.only f = G.only f) : F.has f = G.has f := by
  have honly : ∀ F : Fields, (F.only f).has f = F.has f := by intro F; cases f <;> rfl
  rw [← honly F, h, honly G]

end Fields

lemma Field.ofName?_eq_some_iff {k : Kind} {name : String} {f : Field} :
    ofName? k name = some f ↔ f ∈ ofKind k ∧ f.name = name := by
  constructor
  · intro h
    exact ⟨List.mem_of_find?_eq_some h, by simpa using List.find?_some h⟩
  · rintro ⟨hf, rfl⟩
    cases k <;> cases f <;> revert hf <;> decide

lemma Field.ofName?_eq_none_iff {k : Kind} {name : String} :
    ofName? k name = none ↔ ∀ f ∈ ofKind k, f.name ≠ name := by
  simp [ofName?, List.find?_eq_none]

/-- A kind has a field, or no member holds it. -/
lemma Field.ofName?_name (f : Field) (k : Kind) :
    ofName? k f.name = none ∨ ofName? k f.name = some f := by
  cases k <;> cases f <;> decide

/-- No field is held by a member `type`. -/
lemma Field.name_ne_type (f : Field) : f.name ≠ "type" := by
  cases f <;> decide

/-- The values of the members that hold a field of a kind. -/
def fieldValues (k : Kind) (f : Field) (members : List (String × Json)) : List Json :=
  valuesWhere (fun name => Field.ofName? k name = some f) members

/-- The values of the members `type`. -/
def typeValues (members : List (String × Json)) : List Json :=
  valuesWhere (fun name => name = "type") members

@[simp] lemma typeValues_cons_self (j : Json) (rest : List (String × Json)) :
    typeValues (("type", j) :: rest) = j :: typeValues rest :=
  valuesWhere_cons_of_pos (by simp) j rest

lemma typeValues_cons_of_ne {name : String} (h : name ≠ "type") (j : Json)
    (rest : List (String × Json)) : typeValues ((name, j) :: rest) = typeValues rest :=
  valuesWhere_cons_of_neg (by simp [h]) j rest

lemma typeValues_append_cons_of_ne {name : String} (h : name ≠ "type")
    (before : List (String × Json)) (j : Json) (after : List (String × Json)) :
    typeValues (before ++ (name, j) :: after) = typeValues (before ++ after) := by
  simp [typeValues, valuesWhere, h]

namespace Node

/-! ## One field -/

/-- What is read of a field does not depend on the other fields. -/
lemma result_readField (F : Fields) (f : Field) (j : Json) :
    (readField F f j).result = (readField {} f j).result.map (F.put f) := by
  cases f with
  | tag => cases j <;> rfl
  | properties => cases j <;> rfl
  | value => cases j <;> rfl
  | children =>
    cases j with
    | array items =>
      change (ofJsons items >>= _).result = (ofJsons items >>= _).result.map _
      rw [Logged.result_bind, Logged.result_bind]
      cases (ofJsons items).result <;> rfl
    | null => rfl
    | bool b => rfl
    | number n => rfl
    | string s => rfl
    | object members => rfl

/-- Reading a field reads that field alone, and then it is read. -/
lemma only_of_readField {f : Field} {j : Json} {F : Fields}
    (h : (readField {} f j).result = .ok F) : F.only f = F ∧ F.has f = true := by
  cases f with
  | tag =>
    obtain ⟨s, -, h⟩ := Logged.exists_of_result_bind
      (show (stringField j >>= _).result = .ok F by cases j <;> exact h)
    cases h
    exact ⟨rfl, rfl⟩
  | properties =>
    obtain ⟨p, -, h⟩ := Logged.exists_of_result_bind
      (show (Properties.ofJson j >>= _).result = .ok F by cases j <;> exact h)
    cases h
    exact ⟨rfl, rfl⟩
  | value =>
    obtain ⟨s, -, h⟩ := Logged.exists_of_result_bind
      (show (stringField j >>= _).result = .ok F by cases j <;> exact h)
    cases h
    exact ⟨rfl, rfl⟩
  | children =>
    cases j with
    | array items =>
      obtain ⟨nodes, -, h⟩ := Logged.exists_of_result_bind h
      cases h
      exact ⟨rfl, rfl⟩
    | null => cases h
    | bool b => cases h
    | number n => cases h
    | string s => cases h
    | object members => cases h

lemma readField_eq_ok_iff {F G : Fields} {f : Field} {j : Json} :
    (readField F f j).result = .ok G ↔
      (readField {} f j).result = .ok (G.only f) ∧ ∀ g, g ≠ f → G.only g = F.only g := by
  rw [result_readField]
  constructor
  · intro h
    cases hone : (readField {} f j).result with
    | error e =>
      rw [hone] at h
      cases h
    | ok one =>
      rw [hone] at h
      obtain rfl := Except.ok.inj h
      rw [F.only_put_self, (only_of_readField hone).1]
      exact ⟨rfl, fun g hg => F.only_put_of_ne hg one⟩
  · rintro ⟨hone, hothers⟩
    rw [hone]
    refine congrArg Except.ok (Fields.ext_only fun g => ?_)
    by_cases hg : g = f
    · subst hg
      rw [F.only_put_self, G.only_only]
    · rw [F.only_put_of_ne hg, hothers g hg]

/-! ## All fields -/

/-- What is read of a field comes from the members that hold it: there is none and the field
stays as it is, or there is one, nothing is read of the field before it, and its value is
decoded. -/
def TakesField (k : Kind) (members : List (String × Json)) (F G : Fields) (f : Field) : Prop :=
  (fieldValues k f members = [] ∧ G.only f = F.only f) ∨
    ∃ j, fieldValues k f members = [j] ∧ F.has f = false ∧
      (readField {} f j).result = .ok (G.only f)

lemma takesField_nil_iff {k : Kind} {F G : Fields} {f : Field} :
    TakesField k [] F G f ↔ G.only f = F.only f := by
  simp [TakesField, fieldValues, valuesWhere]

/-- A member that holds no field does not count. -/
lemma takesField_cons_of_none {k : Kind} {name : String} (h : Field.ofName? k name = none)
    {j : Json} {rest : List (String × Json)} {F G : Fields} {f : Field} :
    TakesField k ((name, j) :: rest) F G f ↔ TakesField k rest F G f := by
  rw [TakesField, fieldValues, valuesWhere_cons_of_neg (by simp [h])]
  rfl

/-- A member that holds another field does not count. -/
lemma takesField_cons_of_ne {k : Kind} {name : String} {f g : Field}
    (h : Field.ofName? k name = some g) (hne : f ≠ g) {j : Json}
    {rest : List (String × Json)} {F G : Fields} :
    TakesField k ((name, j) :: rest) F G f ↔ TakesField k rest F G f := by
  rw [TakesField, fieldValues, valuesWhere_cons_of_neg (by simp [h, hne.symm])]
  rfl

/-- The member that holds a field is the only one. -/
lemma takesField_cons_self {k : Kind} {name : String} {f : Field}
    (h : Field.ofName? k name = some f) {j : Json} {rest : List (String × Json)}
    {F G : Fields} :
    TakesField k ((name, j) :: rest) F G f ↔
      fieldValues k f rest = [] ∧ F.has f = false ∧
        (readField {} f j).result = .ok (G.only f) := by
  have hcons : fieldValues k f ((name, j) :: rest) = j :: fieldValues k f rest :=
    valuesWhere_cons_of_pos (by simp [h]) j rest
  rw [TakesField, hcons]
  simp only [reduceCtorEq, false_and, false_or, List.cons.injEq]
  constructor
  · rintro ⟨_, ⟨rfl, hrest⟩, hfresh, hread⟩
    exact ⟨hrest, hfresh, hread⟩
  · rintro ⟨hrest, hfresh, hread⟩
    exact ⟨j, ⟨rfl, hrest⟩, hfresh, hread⟩

/-- The order of the members does not count. -/
lemma TakesField.perm {k : Kind} {members members' : List (String × Json)} {F G : Fields}
    {f : Field} (h : TakesField k members F G f) (hperm : members.Perm members') :
    TakesField k members' F G f := by
  rcases h with ⟨hnone, hsame⟩ | ⟨j, hone, hread⟩
  · exact .inl ⟨valuesWhere_eq_nil_of_perm hperm hnone, hsame⟩
  · exact .inr ⟨j, valuesWhere_eq_singleton_of_perm hperm hone, hread⟩

/-- If a field is read for the first time and then the members behind it are, every field is
taken from all members. -/
lemma takesField_of_readField {k : Kind} {name : String} {g : Field}
    (hname : Field.ofName? k name = some g) {j : Json} {rest : List (String × Json)}
    {F G H : Fields} (hfresh : F.has g = false) (hread : (readField F g j).result = .ok H)
    (hrest : ∀ f, TakesField k rest H G f) (f : Field) :
    TakesField k ((name, j) :: rest) F G f := by
  obtain ⟨hone, hothers⟩ := readField_eq_ok_iff.1 hread
  have hfield := hrest f
  by_cases hf : f = g
  · subst hf
    have hhas : H.has f = true := by
      have hone := (only_of_readField hone).2
      rwa [Fields.has_congr (H.only_only f)] at hone
    rcases hfield with ⟨hnone, hsame⟩ | ⟨_, -, hnew, -⟩
    · exact (takesField_cons_self hname).2 ⟨hnone, hfresh, hsame ▸ hone⟩
    · rw [hhas] at hnew
      cases hnew
  · have hF := hothers f hf
    rw [TakesField, hF, Fields.has_congr hF] at hfield
    exact (takesField_cons_of_ne hname hf).2 hfield

/-- If every field is taken from all members, the first of them can be read, and then those
behind it. -/
lemma exists_readField_of_takesField {k : Kind} {name : String} {g : Field}
    (hname : Field.ofName? k name = some g) {j : Json} {rest : List (String × Json)}
    {F G : Fields} (h : ∀ f, TakesField k ((name, j) :: rest) F G f) :
    F.has g = false ∧ ∃ H, (readField F g j).result = .ok H ∧ ∀ f, TakesField k rest H G f := by
  obtain ⟨hrest, hfresh, hread⟩ := (takesField_cons_self hname).1 (h g)
  refine ⟨hfresh, F.put g G, readField_eq_ok_iff.2
    ⟨by rwa [F.only_put_self], fun f hf => F.only_put_of_ne hf G⟩, fun f => ?_⟩
  by_cases hf : f = g
  · subst hf
    exact .inl ⟨hrest, (F.only_put_self f G).symm⟩
  · have hfield := (takesField_cons_of_ne hname hf).1 (h f)
    have hF := F.only_put_of_ne hf G
    rwa [TakesField, ← hF, ← Fields.has_congr hF] at hfield

/-- The members are read one after the other, and each field comes from its own members. -/
lemma readMembers_eq_ok_iff {k : Kind} {members : List (String × Json)} {F G : Fields} :
    (readMembers k F members).result = .ok G ↔ ∀ f, TakesField k members F G f := by
  induction members generalizing F with
  | nil =>
    simp only [takesField_nil_iff]
    constructor
    · intro h f
      cases h
      rfl
    · intro h
      exact congrArg Except.ok (Fields.ext_only h).symm
  | cons head rest ih =>
    obtain ⟨name, j⟩ := head
    rw [readMembers]
    cases hname : Field.ofName? k name with
    | none =>
      simp only [takesField_cons_of_none hname]
      exact ih
    | some g =>
      -- The member is read first, unless its field is read already.
      dsimp only
      constructor
      · intro h
        split at h
        · cases h
        · rename_i hhas
          obtain ⟨H, hread, hrest⟩ := Logged.exists_of_result_bind h
          exact takesField_of_readField hname (by simpa using hhas) hread (ih.1 hrest)
      · intro h
        obtain ⟨hfresh, H, hread, hrest⟩ := exists_readField_of_takesField hname h
        rw [hfresh, if_neg (by simp), Logged.result_bind_of_ok hread]
        exact ih.2 hrest

/-! ## The kind -/

lemma kindOfMembers_some_eq_ok_iff {k k' : Kind} {members : List (String × Json)} :
    kindOfMembers (some k) members = .ok k' ↔ typeValues members = [] ∧ k = k' := by
  induction members with
  | nil => simp [kindOfMembers, typeValues, valuesWhere]
  | cons head rest ih =>
    obtain ⟨name, j⟩ := head
    rw [kindOfMembers]
    by_cases hname : name = "type"
    · simp [hname]
    · rw [if_neg hname, ih, typeValues_cons_of_ne hname]

/-- The kind is that of the only member `type`. -/
lemma kindOfMembers_eq_ok_iff {k : Kind} {members : List (String × Json)} :
    kindOfMembers none members = .ok k ↔
      ∃ tag, typeValues members = [tag] ∧ kindOfJson tag = .ok k := by
  induction members with
  | nil => simp [kindOfMembers, typeValues, valuesWhere]
  | cons head rest ih =>
    obtain ⟨name, j⟩ := head
    rw [kindOfMembers]
    by_cases hname : name = "type"
    · subst hname
      rw [if_pos rfl, typeValues_cons_self]
      constructor
      · intro h
        obtain ⟨k', hk', h⟩ := exists_of_bind_eq_ok h
        obtain ⟨hrest, rfl⟩ := kindOfMembers_some_eq_ok_iff.1 h
        exact ⟨j, by rw [hrest], hk'⟩
      · rintro ⟨tag, htag, hk⟩
        obtain ⟨rfl, hrest⟩ := List.cons.inj htag
        rw [hk]
        exact kindOfMembers_some_eq_ok_iff.2 ⟨hrest, rfl⟩
    · rw [if_neg hname, ih, typeValues_cons_of_ne hname]

end Node

end FencedCode
