import FencedCode.Proofs.Decoding.Members
import FencedCode.Proofs.Json.Folds

/-!
# Members of the outermost node

The outermost node is read by a loop of its own, which takes the member `type` out and keeps
the others.  It goes side by side with the loop that collects the members of any object, and
the kind it finds is that of the only member `type`, which has to be a string.
-/

namespace FencedCode

namespace Node

/-! ## The kind -/

/-- A value that is neither an array nor an object, and a quote if it is a string. -/
lemma readScalar_cases {c : Char} {text : List Char} {result : Json × List Char}
    (h : Json.readScalar c text = .ok result) :
    (∃ s, c = '"' ∧ result.1 = .string s) ∨ result.1 = .null ∨ (∃ b, result.1 = .bool b) ∨
      ∃ n, result.1 = .number n := by
  unfold Json.readScalar at h
  split at h
  · obtain ⟨_, -, h⟩ := exists_of_bind_eq_ok h
    cases h
    exact .inr (.inl rfl)
  · obtain ⟨_, -, h⟩ := exists_of_bind_eq_ok h
    cases h
    exact .inr (.inr (.inl ⟨true, rfl⟩))
  · obtain ⟨_, -, h⟩ := exists_of_bind_eq_ok h
    cases h
    exact .inr (.inr (.inl ⟨false, rfl⟩))
  · obtain ⟨s, -, h⟩ := exists_of_bind_eq_ok h
    cases h
    exact .inl ⟨s.1, rfl, rfl⟩
  · obtain ⟨n, -, h⟩ := exists_of_bind_eq_ok h
    cases h
    exact .inr (.inr (.inr ⟨n.1, rfl⟩))
  · split at h
    · obtain ⟨n, -, h⟩ := exists_of_bind_eq_ok h
      cases h
      exact .inr (.inr (.inr ⟨n.1, rfl⟩))
    · cases h

/-- The kind of the outermost node is read as a value is that has to be a string. -/
lemma readKind_eq_ok_iff (fuel depth : Nat) {text rest : List Char} {k : Kind} :
    readKind text = .ok (k, rest) ↔
      ∃ s, Json.readValue fuel depth text = .ok (.string s, rest) ∧ kindOfName s = .ok k := by
  constructor
  · intro h
    unfold readKind at h
    split at h
    · cases h
    · rename_i behind hskip
      obtain ⟨⟨s, left⟩, hs, h⟩ := exists_of_bind_eq_ok h
      obtain ⟨k', hk, h⟩ := exists_of_bind_eq_ok h
      cases h
      refine ⟨s, ?_, hk⟩
      rw [Json.readValue, hskip]
      simp [Json.readScalar, hs, bind, Except.bind, pure, Except.pure]
    · cases h
    · cases h
    · obtain ⟨_, -, h⟩ := exists_of_bind_eq_ok h
      cases h
  · rintro ⟨s, hs, hk⟩
    unfold Json.readValue at hs
    split at hs
    · cases hs
    · cases depth with
      | zero => cases hs
      | succ depth =>
        obtain ⟨_, -, hs⟩ := exists_of_bind_eq_ok hs
        cases hs
    · cases depth with
      | zero => cases hs
      | succ depth =>
        obtain ⟨_, -, hs⟩ := exists_of_bind_eq_ok hs
        cases hs
    · -- What is read without a bracket or a brace is a string only behind a quote.
      rename_i hskip
      obtain rfl : _ = '"' := by
        rcases readScalar_cases hs with ⟨_, hc, -⟩ | hj | ⟨_, hj⟩ | ⟨_, hj⟩
        · exact hc
        · cases hj
        · cases hj
        · cases hj
      obtain ⟨⟨s', left⟩, hs', hs⟩ := exists_of_bind_eq_ok hs
      cases hs
      rw [readKind, hskip]
      simp [hs', hk, bind, Except.bind, pure, Except.pure]

/-! ## Objects -/

variable {read : List Char → Except Json.Error (Json × List Char)}

lemma collectMember_eq_ok_iff {members members' : List (String × Json)} {name : String}
    {text rest : List Char} :
    Json.collectMember read members name text = .ok (members', rest) ↔
      ∃ behind j, Json.readColon text = .ok behind ∧ read behind = .ok (j, rest) ∧
        members' = (name, j) :: members := by
  constructor
  · intro h
    obtain ⟨behind, hbehind, h⟩ := exists_of_bind_eq_ok h
    obtain ⟨⟨j, left⟩, hj, h⟩ := exists_of_bind_eq_ok h
    cases h
    exact ⟨behind, j, hbehind, hj, rfl⟩
  · rintro ⟨behind, j, hbehind, hj, rfl⟩
    simp [Json.collectMember, hbehind, hj, bind, Except.bind, pure, Except.pure]

/-- What is known of the outermost node and all members that were read, both with the last
member first: the members `type` are taken out, and the kind is known once there is one. -/
structure Splits (state : Option Kind × List (String × Json)) (all : List (String × Json)) :
    Prop where
  /-- The other members are kept. -/
  kept : state.2 = all.filter fun m => m.1 ≠ "type"
  /-- The kind is that of the only member `type`, if there is one. -/
  kind : (state.1 = none ∧ typeValues all = []) ∨
    ∃ k s, state.1 = some k ∧ typeValues all = [.string s] ∧ kindOfName s = .ok k

/-- There is no member `type`, or one that names a kind. -/
def NamesOnce (all : List (String × Json)) : Prop :=
  typeValues all = [] ∨ ∃ s k, typeValues all = [.string s] ∧ kindOfName s = .ok k

lemma NamesOnce.tail {m : String × Json} {all : List (String × Json)}
    (h : NamesOnce (m :: all)) : NamesOnce all := by
  obtain ⟨name, j⟩ := m
  by_cases hname : name = "type"
  · subst hname
    rw [NamesOnce, typeValues_cons_self] at h
    rcases h with h | ⟨s, k, h, -⟩
    · cases h
    · exact .inl (List.cons.inj h).2
  · rwa [NamesOnce, typeValues_cons_of_ne hname] at h

/-- A member of another name is kept. -/
lemma Splits.cons {state : Option Kind × List (String × Json)} {all : List (String × Json)}
    (h : Splits state all) {name : String} (hname : name ≠ "type") (j : Json) :
    Splits (state.1, (name, j) :: state.2) ((name, j) :: all) := by
  refine ⟨?_, ?_⟩
  · simp [h.kept, hname]
  · rw [typeValues_cons_of_ne hname]
    exact h.kind

variable {fuel depth : Nat} {state : Option Kind × List (String × Json)}
  {all : List (String × Json)}

/-- If all members can be read and the kind is named once at most, the outermost node can be
read. -/
lemma outerMember_of_collectMember (h : Splits state all) {name : String}
    {text rest : List Char} {all' : List (String × Json)}
    (hcollect : Json.collectMember (Json.readValue fuel depth) all name text = .ok (all', rest))
    (hnames : NamesOnce all') :
    ∃ state', outerMember (Json.readValue fuel depth) state name text = .ok (state', rest) ∧
      Splits state' all' := by
  obtain ⟨behind, j, hbehind, hj, rfl⟩ := collectMember_eq_ok_iff.1 hcollect
  by_cases hname : name = "type"
  · subst hname
    rw [NamesOnce, typeValues_cons_self] at hnames
    rcases hnames with hnames | ⟨s, k, hs, hk⟩
    · cases hnames
    · -- The member `type` is the first one, so that the kind is open before it.
      obtain ⟨rfl, hnone⟩ := List.cons.inj hs
      have hopen : state.1 = none := by
        rcases h.kind with ⟨hopen, -⟩ | ⟨_, _, -, hone, -⟩
        · exact hopen
        · rw [hnone] at hone
          cases hone
      have hread := (readKind_eq_ok_iff fuel depth).2 ⟨s, hj, hk⟩
      refine ⟨(some k, state.2), ?_, ?_, ?_⟩
      · simp [outerMember, hopen, hbehind, hread, bind, Except.bind, pure, Except.pure]
      · simp [h.kept]
      · exact .inr ⟨k, s, rfl, by rw [typeValues_cons_self, hnone], hk⟩
  · refine ⟨_, ?_, h.cons hname j⟩
    rw [outerMember, if_neg hname, collectMember_eq_ok_iff.2 ⟨behind, j, hbehind, hj, rfl⟩]
    rfl

/-- If a member of the outermost node can be read, it can be collected. -/
lemma collectMember_of_outerMember (h : Splits state all) {name : String}
    {text rest : List Char} {state' : Option Kind × List (String × Json)}
    (houter : outerMember (Json.readValue fuel depth) state name text = .ok (state', rest)) :
    ∃ all', Json.collectMember (Json.readValue fuel depth) all name text = .ok (all', rest) ∧
      Splits state' all' := by
  rw [outerMember] at houter
  split at houter
  · rename_i hname
    subst hname
    split at houter
    · cases houter
    · rename_i hopen
      obtain ⟨behind, hbehind, houter⟩ := exists_of_bind_eq_ok houter
      obtain ⟨⟨k, left⟩, hread, houter⟩ := exists_of_bind_eq_ok houter
      cases houter
      obtain ⟨s, hs, hk⟩ := (readKind_eq_ok_iff fuel depth).1 hread
      refine ⟨_, collectMember_eq_ok_iff.2 ⟨behind, _, hbehind, hs, rfl⟩, ?_, ?_⟩
      · simp [h.kept]
      · refine .inr ⟨k, s, rfl, ?_, hk⟩
        rcases h.kind with ⟨-, hnone⟩ | ⟨k', _, hsome, -⟩
        · rw [typeValues_cons_self, hnone]
        · rw [hopen] at hsome
          cases hsome
  · rename_i hname
    obtain ⟨⟨kept, left⟩, hcollect, houter⟩ := exists_of_bind_eq_ok houter
    cases houter
    obtain ⟨behind, j, hbehind, hj, rfl⟩ := collectMember_eq_ok_iff.1 hcollect
    exact ⟨_, collectMember_eq_ok_iff.2 ⟨behind, j, hbehind, hj, rfl⟩, h.cons hname j⟩

/-- The members of the outermost node are read if those of an object are and the kind is
named once at most. -/
lemma exists_foldMembers_outerMember {text rest : List Char}
    (h : Json.foldMembers (Json.collectMember (Json.readValue fuel depth)) fuel true [] text =
      .ok (all, rest)) (hnames : NamesOnce all) :
    ∃ state, Json.foldMembers (outerMember (Json.readValue fuel depth)) fuel true (none, [])
      text = .ok (state, rest) ∧ Splits state all := by
  refine Json.foldMembers_follows (R := Splits) (Q := NamesOnce)
    (outerMember (Json.readValue fuel depth)) (Json.collectMember (Json.readValue fuel depth))
    (fun hR hstep hgood => outerMember_of_collectMember hR hstep hgood) ?_
    ⟨rfl, .inl ⟨rfl, rfl⟩⟩ h hnames
  intro t name text t' rest hcollect hgood
  obtain ⟨_, _, -, -, rfl⟩ := collectMember_eq_ok_iff.1 hcollect
  exact hgood.tail

/-- If the members of the outermost node are read, those of an object are. -/
lemma exists_foldMembers_collectMember {text rest : List Char}
    (h : Json.foldMembers (outerMember (Json.readValue fuel depth)) fuel true (none, []) text =
      .ok (state, rest)) :
    ∃ all, Json.foldMembers (Json.collectMember (Json.readValue fuel depth)) fuel true [] text =
      .ok (all, rest) ∧ Splits state all :=
  Json.foldMembers_follows (R := fun all state => Splits state all) (Q := fun _ => True)
    (Json.collectMember (Json.readValue fuel depth)) (outerMember (Json.readValue fuel depth))
    (fun hR hstep _ => collectMember_of_outerMember hR hstep) (fun _ _ => trivial)
    ⟨rfl, .inl ⟨rfl, rfl⟩⟩ h trivial

end Node

end FencedCode
