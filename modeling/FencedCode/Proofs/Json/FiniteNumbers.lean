import FencedCode.Proofs.Json.Folds
import FencedCode.Proofs.Json.Significands

/-!
# Numbers that are read are finite

Every number in a value that is read off a text is finite: a significand of 64 bits is far
below the limit, dividing it by a power of ten does not make it larger, and a product that
is not finite is refused.
-/

namespace FencedCode

namespace Double

/-! ## Quotients -/

lemma isFinite_negate (x : Double) : x.negate.isFinite = x.isFinite := by
  cases x <;> rfl

/-- Dividing by a number that is at least one leaves a number finite. -/
lemma div_eq_finite (a b : Bool) (x : Magnitude) {y : Magnitude}
    (hy : unitsPerOne ≤ y.units) :
    ∃ z : Magnitude, (finite a x).div (finite b y) = finite (a != b) z := by
  have hpos : 0 < y.units := Nat.lt_of_lt_of_le unitsPerOne_pos hy
  have hle : roundUnits (x.units * unitsPerOne) y.units ≤ x.units :=
    calc roundUnits (x.units * unitsPerOne) y.units
        ≤ roundUnits (x.units * y.units) y.units :=
          roundUnits_mono _ (Nat.mul_le_mul_left _ hy)
      _ = roundUnits x.units 1 := roundUnits_mul _ _ hpos
      _ = x.units := roundUnits_of_representable x.representable
  obtain ⟨z, hz, -⟩ := ofUnits_eq_finite (a != b) (Nat.lt_of_le_of_lt hle x.bounded)
  exact ⟨z, by rw [div, if_neg (by omega), hz]⟩

/-- A power of ten in double precision is at least one. -/
lemma tenTo_eq_finite_of_one_le {places : Nat} (h : places ≤ 308) :
    ∃ y : Magnitude, tenTo places = finite false y ∧ unitsPerOne ≤ y.units := by
  obtain ⟨y, htenTo, hunits⟩ := tenTo_eq_finite h
  have hone : roundUnits unitsPerOne 1 = unitsPerOne :=
    roundUnits_of_representable ⟨1, 1074, by decide, rfl⟩
  have hle : unitsPerOne ≤ 10 ^ places * unitsPerOne :=
    Nat.le_mul_of_pos_left _ (Nat.pow_pos (by decide))
  refine ⟨y, htenTo, ?_⟩
  calc unitsPerOne = roundUnits unitsPerOne 1 := hone.symm
    _ ≤ roundUnits (10 ^ places * unitsPerOne) 1 := roundUnits_mono 1 hle
    _ = y.units := hunits.symm

lemma isFinite_shiftDown (negative : Bool) (x : Magnitude) (places : Nat) :
    ((finite negative x).shiftDown places).isFinite = true := by
  rw [shiftDown]
  split
  · rename_i hplaces
    obtain ⟨y, hy, hone⟩ := tenTo_eq_finite_of_one_le hplaces
    obtain ⟨z, hz⟩ := div_eq_finite negative false x hone
    rw [hy, hz]
    rfl
  · split
    · -- A full step first, and then one for the places that are left.
      rename_i hplaces
      obtain ⟨y, hy, hone⟩ := tenTo_eq_finite_of_one_le (Nat.le_refl 308)
      obtain ⟨y', hy', hone'⟩ :=
        tenTo_eq_finite_of_one_le (show places - 308 ≤ 308 by omega)
      obtain ⟨z, hz⟩ := div_eq_finite negative false x hone
      obtain ⟨z', hz'⟩ := div_eq_finite (negative != false) false z hone'
      rw [hy, hz, hy', hz']
      rfl
    · decide

/-! ## Numbers -/

lemma isFinite_ofNat {n : Nat} (h : n < 2 ^ 64) : (ofNat n).isFinite = true := by
  obtain ⟨x, hx, -⟩ := ofNat_eq_finite h
  rw [hx]
  rfl

/-- What is made of a significand of 64 bits and a power of ten is finite. -/
lemma isFinite_of_scaled? {significand : Nat} {exponent : Int} {x : Double}
    (hsignificand : significand < 2 ^ 64) (h : scaled? significand exponent = some x) :
    x.isFinite = true := by
  rw [scaled?] at h
  split at h
  · obtain rfl := Option.some.inj h
    exact isFinite_ofNat (by decide)
  · split at h
    · obtain rfl := Option.some.inj h
      obtain ⟨y, hy, -⟩ := ofNat_eq_finite hsignificand
      rw [hy]
      exact isFinite_shiftDown false y _
    · split at h
      · cases h
      · -- A product may be infinite, and is then no result.
        obtain ⟨hfinite, hx⟩ := Option.ite_none_right_eq_some.1 h
        exact Option.some.inj hx ▸ hfinite

end Double

namespace Json

lemma isFinite_toDouble_integer {n : Int} (h : n.natAbs < 2 ^ 64) :
    (JsonNumber.integer n).toDouble.isFinite = true := by
  have hfinite := Double.isFinite_ofNat h
  rw [JsonNumber.toDouble]
  split
  · rwa [Double.isFinite_negate]
  · exact hfinite

lemma isFinite_integerOf (negative : Bool) {size : Nat} (h : size < 2 ^ 64) :
    (integerOf negative size).toDouble.isFinite = true := by
  rw [integerOf]
  split
  · split
    · rw [JsonNumber.toDouble, Double.isFinite_negate]
      exact Double.isFinite_ofNat h
    · exact isFinite_toDouble_integer (by omega)
  · exact isFinite_toDouble_integer (by omega)

/-- The digits of a number make a finite number, if they make one. -/
lemma isFinite_of_numberOf {negative : Bool} {whole fraction : List Char}
    {exponent : Option Int} {n : JsonNumber}
    (h : numberOf negative whole fraction exponent = .ok n) :
    n.toDouble.isFinite = true := by
  obtain ⟨-, -, -, hwhole⟩ := gather_spec 0 whole
  have hsize := hwhole (by decide)
  unfold numberOf at h
  split at h
  · rename_i heq
    obtain rfl := Except.ok.inj h
    rw [heq] at hsize
    exact isFinite_integerOf negative hsize
  · rename_i fraction _ _ _ _ significand dropped heq _
    rw [heq] at hsize
    obtain ⟨-, -, -, hfraction⟩ := gather_spec significand fraction
    dsimp only at h
    split at h
    · cases h
    · rename_i x hscaled
      obtain rfl := Except.ok.inj h
      have hx := Double.isFinite_of_scaled? (hfraction hsize) hscaled
      cases negative
      · exact hx
      · exact (Double.isFinite_negate x).trans hx

lemma isFinite_of_readNumber {negative : Bool} {text rest : List Char} {n : JsonNumber}
    (h : readNumber negative text = .ok (n, rest)) : n.toDouble.isFinite = true := by
  obtain ⟨_, -, h⟩ := exists_of_bind_eq_ok h
  obtain ⟨_, -, h⟩ := exists_of_bind_eq_ok h
  obtain ⟨_, -, h⟩ := exists_of_bind_eq_ok h
  obtain ⟨_, hnumber, h⟩ := exists_of_bind_eq_ok h
  cases h
  exact isFinite_of_numberOf hnumber

/-- A number beyond the limit is refused. -/
example : (readNumber false "1e309".toList).isOk = false := by decide +kernel

/-! ## Values -/

/-- Whether all numbers of a value are finite. -/
inductive AllFinite : Json → Prop where
  | null : AllFinite null
  | bool (b : Bool) : AllFinite (bool b)
  | number {n : JsonNumber} (h : n.toDouble.isFinite = true) : AllFinite (number n)
  | string (s : String) : AllFinite (string s)
  | array {items : List Json} (h : ∀ j ∈ items, AllFinite j) : AllFinite (array items)
  | object {members : List (String × Json)} (h : ∀ m ∈ members, AllFinite m.2) :
      AllFinite (object members)

lemma allFinite_of_readScalar {c : Char} {text rest : List Char} {j : Json}
    (h : readScalar c text = .ok (j, rest)) : j.AllFinite := by
  unfold readScalar at h
  split at h
  · obtain ⟨_, -, h⟩ := exists_of_bind_eq_ok h
    cases h
    exact .null
  · obtain ⟨_, -, h⟩ := exists_of_bind_eq_ok h
    cases h
    exact .bool true
  · obtain ⟨_, -, h⟩ := exists_of_bind_eq_ok h
    cases h
    exact .bool false
  · obtain ⟨s, -, h⟩ := exists_of_bind_eq_ok h
    cases h
    exact .string s.1
  · obtain ⟨n, hn, h⟩ := exists_of_bind_eq_ok h
    cases h
    exact .number (isFinite_of_readNumber hn)
  · split at h
    · obtain ⟨n, hn, h⟩ := exists_of_bind_eq_ok h
      cases h
      exact .number (isFinite_of_readNumber hn)
    · cases h

/-! ## The main result -/

/-- A reader that gives values with finite numbers only. -/
def ReadsFinite (read : List Char → Except Error (Json × List Char)) : Prop :=
  ∀ ⦃text result⦄, read text = .ok result → result.1.AllFinite

variable {read : List Char → Except Error (Json × List Char)}

lemma collectItem_invariant (hread : ReadsFinite read) {items : List Json}
    {text : List Char} {result : List Json × List Char} (hitems : ∀ j ∈ items, j.AllFinite)
    (h : collectItem read items text = .ok result) : ∀ j ∈ result.1, j.AllFinite := by
  obtain ⟨j, hj, h⟩ := exists_of_bind_eq_ok h
  obtain rfl := Except.ok.inj h
  exact List.forall_mem_cons.2 ⟨hread hj, hitems⟩

lemma collectMember_invariant (hread : ReadsFinite read) {members : List (String × Json)}
    {name : String} {text : List Char} {result : List (String × Json) × List Char}
    (hmembers : ∀ m ∈ members, m.2.AllFinite)
    (h : collectMember read members name text = .ok result) :
    ∀ m ∈ result.1, m.2.AllFinite := by
  obtain ⟨_, -, h⟩ := exists_of_bind_eq_ok h
  obtain ⟨j, hj, h⟩ := exists_of_bind_eq_ok h
  obtain rfl := Except.ok.inj h
  exact List.forall_mem_cons.2 ⟨hread hj, hmembers⟩

/-- **Every number that is read is finite**, however many arrays and objects may be open. -/
theorem readsFinite_readValue (fuel depth : Nat) : ReadsFinite (readValue fuel depth) := by
  induction depth with
  | zero =>
    intro text result h
    rw [readValue] at h
    split at h
    · cases h
    · cases h
    · cases h
    · exact allFinite_of_readScalar h
  | succ depth ih =>
    intro text result h
    rw [readValue] at h
    split at h
    · cases h
    · obtain ⟨items, hitems, h⟩ := exists_of_bind_eq_ok h
      obtain rfl := Except.ok.inj h
      have hall := foldItems_invariant (P := fun items : List Json => ∀ j ∈ items, j.AllFinite)
        (collectItem_invariant ih) (by simp) hitems
      exact .array fun j hj => hall j (List.mem_reverse.1 hj)
    · obtain ⟨members, hmembers, h⟩ := exists_of_bind_eq_ok h
      obtain rfl := Except.ok.inj h
      have hall := foldMembers_invariant
        (P := fun members : List (String × Json) => ∀ m ∈ members, m.2.AllFinite)
        (collectMember_invariant ih) (by simp) hmembers
      exact .object fun m hm => hall m (List.mem_reverse.1 hm)
    · exact allFinite_of_readScalar h

end Json

end FencedCode
