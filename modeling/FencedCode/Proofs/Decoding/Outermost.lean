import FencedCode.Proofs.Decoding.Nodes
import FencedCode.Proofs.Decoding.OuterMembers
import FencedCode.Proofs.Documents
import FencedCode.Proofs.Json.Fuel

/-!
# Texts of documents and their values

The outermost node is decoded while its text is read, and its kind before the rest of it.
All the same, a text is decoded exactly if it is the text of a value that is decoded as any
node is, and whose kind is said by a string, `Node.ofJsonText_eq_ok_iff`.
-/

namespace FencedCode

namespace Json

/-- A text is that of a value: the value is read off it, and nothing but blanks is left. -/
def IsTextOf (text : String) (j : Json) : Prop :=
  ∃ rest, readValue (text.length + 1) maxDepth text.toList = .ok (j, rest) ∧
    readEnd rest = .ok ()

/-- What says the kind of a node: its members `type`, or its first item. -/
def tags : Json → List Json
  | object members => typeValues members
  | array (tag :: _) => [tag]
  | _ => []

/-- The kind of a node is said once, and by a string. -/
def NamesKind (j : Json) : Prop :=
  ∃ s, j.tags = [string s]

/-- A text is that of one value only. -/
lemma IsTextOf.unique {text : String} {j j' : Json} (h : IsTextOf text j)
    (h' : IsTextOf text j') : j = j' := by
  obtain ⟨rest, hread, -⟩ := h
  obtain ⟨rest', hread', -⟩ := h'
  exact congrArg Prod.fst (Except.ok.inj (hread.symm.trans hread'))

lemma readValue_render (layout : Layout) {j : Json} (hread : j.Readable) :
    readValue ((j.render layout).length + 1) maxDepth (j.render layout).toList =
      if j.depth ≤ maxDepth then .ok (j.reread, []) else .error .malformed := by
  have htext : (j.render layout).toList = write layout 0 [] j := by
    rw [render, String.toList_ofList]
  rw [htext, readValue_write layout 0 _ _ numberEnds_nil j hread]
  rw [← htext, String.length_toList]
  exact Nat.le_succ _

/-- What is written of a value is its text, unless it opens too many arrays and objects. -/
lemma isTextOf_render (layout : Layout) {j : Json} (hread : j.Readable)
    (hdepth : j.depth ≤ maxDepth) : IsTextOf (j.render layout) j.reread :=
  ⟨[], by rw [readValue_render layout hread, if_pos hdepth], rfl⟩

/-- What is written of a value that opens too many arrays and objects is no text. -/
lemma not_isTextOf_render (layout : Layout) {j : Json} (hread : j.Readable)
    (hdepth : maxDepth < j.depth) (j' : Json) : ¬IsTextOf (j.render layout) j' := by
  rintro ⟨rest, h, -⟩
  rw [readValue_render layout hread, if_neg (Nat.not_le.2 hdepth)] at h
  cases h

/-- What stands before the first token of a value does not count. -/
lemma readValue_congr (fuel depth : Nat) {text text' : List Char}
    (h : skipBlanks text = skipBlanks text') :
    readValue fuel depth text = readValue fuel depth text' := by
  unfold readValue
  rw [h]

end Json

namespace Node

variable {fuel : Nat}

/-! ## The outermost node -/

/-- What is known of the outermost node and the value that its text is of. -/
inductive Outer.IsOf : Outer → Json → Prop where
  | members {k : Kind} {s : String} {all : List (String × Json)} (hk : kindOfName s = .ok k)
      (hall : typeValues all = [.string s]) :
      IsOf (.members k (all.filter fun m => m.1 ≠ "type")) (.object all)
  | items {k : Kind} {s : String} {items : List Json} (hk : kindOfName s = .ok k) :
      IsOf (.items k items) (.array (.string s :: items))

lemma Outer.IsOf.namesKind {outer : Outer} {j : Json} (h : outer.IsOf j) : j.NamesKind := by
  cases h with
  | members _ hall => exact ⟨_, hall⟩
  | items _ => exact ⟨_, rfl⟩

/-- Members `type` hold no field. -/
lemma readMembers_filter (k : Kind) (F : Fields) (members : List (String × Json)) :
    readMembers k F (members.filter fun m => m.1 ≠ "type") = readMembers k F members := by
  induction members generalizing F with
  | nil => rfl
  | cons head rest ih =>
    obtain ⟨name, j⟩ := head
    by_cases hname : name = "type"
    · subst hname
      rw [List.filter_cons_of_neg (by simp), readMembers_cons_type, ih]
    · rw [List.filter_cons_of_pos (by simp [hname]), readMembers, readMembers]
      simp only [ih]

/-- The outermost node is decoded as the value is that its text is of. -/
lemma Outer.IsOf.ofOuter_eq {outer : Outer} {j : Json} (h : outer.IsOf j) :
    (ofOuter outer).result = (ofJson j).result := by
  cases h with
  | members hk hall =>
    have hkind := kindOfMembers_eq_ok_iff.2 ⟨_, hall, hk⟩
    rw [ofOuter, ofJson, hkind, readMembers_filter]
    rfl
  | items hk =>
    rw [ofOuter, ofJson, kindOfJson, hk]
    rfl

section Texts

variable {text behind after : List Char} {c : Char}

/-- What stands before the first token of a node does not count. -/
lemma readOuter_congr (fuel : Nat) {text text' : List Char}
    (h : Json.skipBlanks text = Json.skipBlanks text') :
    readOuter fuel text = readOuter fuel text' := by
  unfold readOuter
  rw [h]

/-- The first item of an array says the kind of the outermost node. -/
lemma readOuter_array (fuel : Nat) (behind : List Char) :
    readOuter fuel ('[' :: behind) =
      match Json.skipBlanks behind with
      | ']' :: _ => .error (.misshapen (.missingField "type"))
      | first => (readKind first).bind fun r =>
        (Json.foldItems (Json.collectItem (Json.readValue fuel (Json.maxDepth - 1))) fuel false []
          r.2).map fun q => (.items r.1 q.1.reverse, q.2) := by
  rw [readOuter, Json.skipBlanks_cons (by decide)]
  change (match Json.skipBlanks behind with
    | ']' :: _ => Except.error (Json.Error.misshapen (Json.Mismatch.missingField "type"))
    | first => readKind first >>= fun r =>
      Json.foldItems (Json.collectItem (Json.readValue fuel (Json.maxDepth - 1))) fuel false []
        r.2 >>= fun q => pure (Outer.items r.1 q.1.reverse, q.2)) = _
  split
  · rfl
  · rename_i first _
    cases readKind first with
    | error e => rfl
    | ok r =>
      simp only [bind, Except.bind, pure, Except.pure]
      cases Json.foldItems (Json.collectItem (Json.readValue fuel (Json.maxDepth - 1))) fuel false
        [] r.2 <;> rfl

/-- The first item of an array is read as a value is. -/
lemma readValue_array (hfirst : Json.skipBlanks behind = c :: after) (hc : c ≠ ']')
    (hfuel : behind.length < fuel) :
    Json.readValue fuel Json.maxDepth ('[' :: behind) =
      (Json.readValue fuel (Json.maxDepth - 1) (c :: after)).bind fun r =>
        (Json.foldItems (Json.collectItem (Json.readValue fuel (Json.maxDepth - 1))) fuel false []
          r.2).map fun q => (.array (r.1 :: q.1.reverse), q.2) := by
  have harray := Json.readValue_array_succ fuel (Json.maxDepth - 1) behind
  rw [Json.foldItems_collectItem_first (Json.takes_readValue fuel (Json.maxDepth - 1))
    hfuel hfirst hc] at harray
  refine harray.trans ?_
  cases Json.readValue fuel (Json.maxDepth - 1) (c :: after) with
  | error e => rfl
  | ok r =>
    simp only [Except.bind]
    cases Json.foldItems (Json.collectItem (Json.readValue fuel (Json.maxDepth - 1))) fuel false []
      r.2 <;> simp [Except.map]

/-- The members of an object are read one after the other. -/
lemma readValue_object (fuel : Nat) (behind : List Char) :
    Json.readValue fuel Json.maxDepth ('{' :: behind) =
      (Json.foldMembers (Json.collectMember (Json.readValue fuel (Json.maxDepth - 1))) fuel true []
        behind).map fun r => (.object r.1.reverse, r.2) :=
  Json.readValue_object_succ fuel (Json.maxDepth - 1) behind

/-- Whatever node is read off an object, a value is. -/
lemma exists_isOf_of_readOuter_object {rest : List Char} {outer : Outer}
    (h : readOuter fuel ('{' :: behind) = .ok (outer, rest)) :
    ∃ j, Json.readValue fuel Json.maxDepth ('{' :: behind) = .ok (j, rest) ∧ outer.IsOf j := by
  rw [readOuter_object] at h
  obtain ⟨⟨⟨kind, kept⟩, left⟩, houter, h⟩ := exists_of_bind_eq_ok h
  obtain ⟨all, hall, hkept, hkind⟩ := exists_foldMembers_collectMember houter
  rcases hkind with ⟨hopen, -⟩ | ⟨k, s, hk, hs, hname⟩
  · obtain rfl : kind = none := hopen
    cases h
  · obtain rfl : kind = some k := hk
    cases h
    refine ⟨.object all.reverse, ?_, ?_⟩
    · rw [readValue_object, hall]
      rfl
    · rw [show kept = _ from hkept, ← List.filter_reverse]
      exact .members hname (valuesWhere_eq_singleton_of_perm (List.reverse_perm all).symm hs)

/-- Whatever node is read off an array, a value is. -/
lemma exists_isOf_of_readOuter_array {rest : List Char} {outer : Outer}
    (hfuel : behind.length < fuel) (h : readOuter fuel ('[' :: behind) = .ok (outer, rest)) :
    ∃ j, Json.readValue fuel Json.maxDepth ('[' :: behind) = .ok (j, rest) ∧ outer.IsOf j := by
  rw [readOuter_array] at h
  split at h
  · cases h
  · rename_i hclose
    obtain ⟨⟨k, next⟩, hk, h⟩ := exists_of_bind_eq_ok h
    obtain ⟨⟨items, left⟩, hitems, h⟩ := exists_of_map_eq_ok h
    cases h
    obtain ⟨s, hs, hname⟩ := (readKind_eq_ok_iff fuel (Json.maxDepth - 1)).1 hk
    cases hfirst : Json.skipBlanks behind with
    | nil =>
      rw [hfirst] at hk
      cases hk
    | cons c after =>
      have hc : c ≠ ']' := fun hc => hclose after (by rw [hfirst, hc])
      refine ⟨.array (.string s :: items.reverse), ?_, .items hname⟩
      rw [readValue_array hfirst hc hfuel, ← hfirst, hs]
      simp only [Except.bind, hitems, Except.map]

/-- Whatever node is read, the text is that of a value. -/
lemma exists_isOf_of_readOuter {rest : List Char} {outer : Outer}
    (hfuel : text.length < fuel) (h : readOuter fuel text = .ok (outer, rest)) :
    ∃ j, Json.readValue fuel Json.maxDepth text = .ok (j, rest) ∧ outer.IsOf j := by
  have houter := h
  unfold readOuter at h
  dsimp only at h
  split at h
  · cases h
  · rename_i behind hskip
    have hsame : Json.skipBlanks text = Json.skipBlanks ('{' :: behind) := by
      rw [hskip, Json.skipBlanks_cons (by decide)]
    rw [readOuter_congr fuel hsame] at houter
    rw [Json.readValue_congr fuel _ hsame]
    exact exists_isOf_of_readOuter_object houter
  · rename_i behind hskip
    have hsame : Json.skipBlanks text = Json.skipBlanks ('[' :: behind) := by
      rw [hskip, Json.skipBlanks_cons (by decide)]
    rw [readOuter_congr fuel hsame] at houter
    rw [Json.readValue_congr fuel _ hsame]
    exact exists_isOf_of_readOuter_array
      (Nat.lt_trans (Json.length_lt_of_skipBlanks hskip) hfuel) houter
  · obtain ⟨_, -, h⟩ := exists_of_bind_eq_ok h
    cases h

variable {rest : List Char} {j : Json} {s : String} {k : Kind}

/-- If an object is read whose kind is said by a string that names one, a node is. -/
lemma exists_isOf_of_readValue_object
    (h : Json.readValue fuel Json.maxDepth ('{' :: behind) = .ok (j, rest))
    (hs : j.tags = [.string s]) (hk : kindOfName s = .ok k) :
    ∃ outer, readOuter fuel ('{' :: behind) = .ok (outer, rest) ∧ outer.IsOf j := by
  rw [readValue_object] at h
  obtain ⟨⟨all, left⟩, hall, h⟩ := exists_of_map_eq_ok h
  cases h
  have hs' : typeValues all = [.string s] :=
    valuesWhere_eq_singleton_of_perm (List.reverse_perm all) hs
  obtain ⟨⟨kind, kept⟩, houter, hkept, hkind⟩ :=
    exists_foldMembers_outerMember hall (.inr ⟨s, k, hs', hk⟩)
  rcases hkind with ⟨-, hnone⟩ | ⟨k', s', hk', hone, hname⟩
  · rw [hs'] at hnone
    cases hnone
  · obtain rfl : kind = some k' := hk'
    refine ⟨.members k' (all.reverse.filter fun m => m.1 ≠ "type"), ?_, .members hname ?_⟩
    · rw [readOuter_object, houter, List.filter_reverse, ← hkept]
      rfl
    · exact valuesWhere_eq_singleton_of_perm (List.reverse_perm all).symm hone

/-- If an array is read whose first item is a string that names a kind, a node is. -/
lemma exists_isOf_of_readValue_array (hfuel : behind.length < fuel)
    (h : Json.readValue fuel Json.maxDepth ('[' :: behind) = .ok (j, rest))
    (hs : j.tags = [.string s]) (hk : kindOfName s = .ok k) :
    ∃ outer, readOuter fuel ('[' :: behind) = .ok (outer, rest) ∧ outer.IsOf j := by
  obtain ⟨left, rfl⟩ : ∃ n, fuel = n + 1 := ⟨fuel - 1, by omega⟩
  have harray := (Json.readValue_array_succ (left + 1) (Json.maxDepth - 1) behind).symm.trans h
  cases hfirst : Json.skipBlanks behind with
  | nil =>
    rw [Json.foldItems, hfirst] at harray
    cases harray
  | cons c after =>
    by_cases hc : c = ']'
    · subst hc
      rw [Json.foldItems, hfirst] at harray
      cases harray
      cases hs
    · rw [readValue_array hfirst hc hfuel] at h
      obtain ⟨⟨tag, next⟩, htag, h⟩ := exists_of_bind_eq_ok h
      obtain ⟨⟨items, behind'⟩, hitems, h⟩ := exists_of_map_eq_ok h
      cases h
      obtain rfl : tag = .string s := List.singleton_inj.1 hs
      have hkind := (readKind_eq_ok_iff (left + 1) (Json.maxDepth - 1)).2 ⟨s, htag, hk⟩
      refine ⟨.items k items.reverse, ?_, .items hk⟩
      rw [readOuter_array, hfirst]
      split
      · rename_i heq
        cases heq
        exact absurd rfl hc
      · simp only [hkind, Except.bind, hitems, Except.map]

/-- If a value is read whose kind is said by a string that names one, a node is. -/
lemma exists_isOf_of_readValue (hfuel : text.length < fuel)
    (h : Json.readValue fuel Json.maxDepth text = .ok (j, rest))
    (hs : j.tags = [.string s]) (hk : kindOfName s = .ok k) :
    ∃ outer, readOuter fuel text = .ok (outer, rest) ∧ outer.IsOf j := by
  have hvalue := h
  unfold Json.readValue at h
  split at h
  · cases h
  · rename_i behind hskip
    have hsame : Json.skipBlanks text = Json.skipBlanks ('[' :: behind) := by
      rw [hskip, Json.skipBlanks_cons (by decide)]
    rw [Json.readValue_congr fuel _ hsame] at hvalue
    rw [readOuter_congr fuel hsame]
    exact exists_isOf_of_readValue_array
      (Nat.lt_trans (Json.length_lt_of_skipBlanks hskip) hfuel) hvalue hs hk
  · rename_i behind hskip
    have hsame : Json.skipBlanks text = Json.skipBlanks ('{' :: behind) := by
      rw [hskip, Json.skipBlanks_cons (by decide)]
    rw [Json.readValue_congr fuel _ hsame] at hvalue
    rw [readOuter_congr fuel hsame]
    exact exists_isOf_of_readValue_object hvalue hs hk
  · rcases readScalar_cases h with ⟨_, -, hj⟩ | hj | ⟨_, hj⟩ | ⟨_, hj⟩
    all_goals
      rw [show j = _ from hj] at hs
      cases hs

end Texts

/-- A node is decoded only if the string that says its kind names one. -/
lemma exists_kindOfName {j : Json} {s : String} (hs : j.tags = [.string s]) {n : Node}
    (hn : (ofJson j).result = .ok n) : ∃ k, kindOfName s = .ok k := by
  cases j with
  | object members =>
    obtain ⟨k, F, hsays, -⟩ := ofJson_object_eq_ok_iff.1 hn
    obtain ⟨tag, htag, hk⟩ := hsays.kind
    obtain rfl : tag = .string s := List.singleton_inj.1 (htag.symm.trans hs)
    exact ⟨k, hk⟩
  | array items =>
    cases items with
    | nil => cases hs
    | cons tag items =>
      obtain ⟨k, hk, -⟩ := ofJson_array_eq_ok_iff.1 hn
      obtain rfl := List.singleton_inj.1 hs
      exact ⟨k, hk⟩
  | null => cases hs
  | bool b => cases hs
  | number n => cases hs
  | string s => cases hs

/-- **A text is decoded exactly if** it is the text of a value that is decoded and whose kind
is said by a string. -/
theorem ofJsonText_eq_ok_iff {text : String} {n : Node} :
    (ofJsonText text).result = .ok n ↔
      ∃ j, Json.IsTextOf text j ∧ j.NamesKind ∧ (ofJson j).result = .ok n := by
  constructor
  · intro h
    obtain ⟨⟨outer, rest⟩, houter, h⟩ := Logged.exists_of_result_bind h
    obtain ⟨n', hn', h⟩ := Logged.exists_of_result_bind h
    obtain ⟨_, hend, h⟩ := Logged.exists_of_result_bind h
    cases h
    obtain ⟨j, hread, hj⟩ := exists_isOf_of_readOuter (Nat.lt_succ_self _) houter
    exact ⟨j, ⟨rest, hread, hend⟩, hj.namesKind, hj.ofOuter_eq ▸ hn'⟩
  · rintro ⟨j, ⟨rest, hread, hend⟩, hj, hn⟩
    obtain ⟨s, hs⟩ := hj
    obtain ⟨k, hk⟩ := exists_kindOfName hs hn
    obtain ⟨outer, houter, hof⟩ :=
      exists_isOf_of_readValue (Nat.lt_succ_self _) hread hs hk
    have houter' : (Logged.ofExcept (readOuter (text.length + 1) text.toList)).result =
        .ok (outer, rest) := houter
    have hend' : (Logged.ofExcept (Json.readEnd rest)).result = .ok () := hend
    rw [ofJsonText, Logged.result_bind_of_ok houter',
      Logged.result_bind_of_ok (hof.ofOuter_eq.trans hn), Logged.result_bind_of_ok hend']
    rfl

end Node

/-- **A text is that of a document exactly if** it is the text of a value that is decoded as
a root and whose kind is said by a string. -/
theorem Root.ofJsonText_eq_ok_iff {text : String} {r : Root} :
    (Root.ofJsonText text).result = .ok r ↔
      ∃ j, Json.IsTextOf text j ∧ j.NamesKind ∧ (Node.ofJson j).result = .ok r.node := by
  rw [← Node.ofJsonText_eq_ok_iff]
  constructor
  · intro h
    obtain ⟨n, hn, h⟩ := Logged.exists_of_result_bind h
    have hnode := eq_ok_of_mapError_eq_ok hn
    cases n <;> cases h
    exact hnode
  · intro h
    have hn : ((Node.ofJsonText text).mapError DocumentError.json).result = .ok r.node := by
      rw [Logged.mapError, h]
      rfl
    rw [ofJsonText, Logged.result_bind_of_ok hn]
    rfl

end FencedCode
