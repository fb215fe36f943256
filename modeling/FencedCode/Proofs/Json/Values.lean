import FencedCode.Proofs.Json.Scalars

/-!
# Values read back

What the reader makes of a written value is the value itself, except for numbers: one that
has no text was written as `null`, and any other is what the reader makes of its text.  The
reader refuses a value that opens more arrays and objects than it allows.
-/

namespace FencedCode

namespace Json

/-! ## What becomes of a value -/

mutual

/-- The value with every number as it is read back. -/
def reread : Json → Json
  | number n => (n.reread?.map number).getD null
  | array items => array (rereadItems items)
  | object members => object (rereadMembers members)
  | j => j

/-- The items with every number as it is read back. -/
def rereadItems : List Json → List Json
  | [] => []
  | j :: rest => reread j :: rereadItems rest

/-- The members with every number as it is read back. -/
def rereadMembers : List (String × Json) → List (String × Json)
  | [] => []
  | (name, j) :: rest => (name, reread j) :: rereadMembers rest

end

@[simp] lemma reread_null : reread null = null := by
  rw [reread] <;> simp

@[simp] lemma reread_bool (b : Bool) : reread (bool b) = bool b := by
  rw [reread] <;> simp

@[simp] lemma reread_string (s : String) : reread (string s) = string s := by
  rw [reread] <;> simp

mutual

/-- Whether every number of a value is readable. -/
def Readable : Json → Prop
  | number n => n.Readable
  | array items => ReadableItems items
  | object members => ReadableMembers members
  | _ => True

/-- Whether every number of some items is readable. -/
def ReadableItems : List Json → Prop
  | [] => True
  | j :: rest => Readable j ∧ ReadableItems rest

/-- Whether every number of some members is readable. -/
def ReadableMembers : List (String × Json) → Prop
  | [] => True
  | (_, j) :: rest => Readable j ∧ ReadableMembers rest

end

/-- A number is read back, or `null` if it has no text. -/
lemma readValue_number (fuel depth : Nat) {n : JsonNumber} (h : n.Readable)
    {behind : List Char} (hend : NumberEnds behind) :
    readValue fuel depth (n.chars?.getD nullChars ++ behind) =
      .ok (reread (.number n), behind) := by
  cases hspelling : n.spelling? with
  | none =>
    have hchars : n.chars? = none := by rw [n.chars?_eq, hspelling, Option.map_none]
    rw [reread, JsonNumber.reread?, hchars]
    exact readValue_null fuel depth behind
  | some s =>
    obtain ⟨negative, s⟩ := s
    have hchars := n.chars?_eq
    rw [hspelling, Option.map_some] at hchars
    rw [JsonNumber.Readable, hchars, JsonNumber.reread?_eq hspelling] at h
    rw [hchars, Option.getD_some, List.append_assoc,
      readValue_spelling fuel depth negative (JsonNumber.valid_of_spelling? hspelling) hend,
      reread, JsonNumber.reread?_eq hspelling]
    cases hresult : s.number negative with
    | ok n' => rfl
    | error e =>
      rw [hresult] at h
      cases h rfl

/-! ## How a written value starts and what follows it -/

lemma valueStarts_cons {c : Char} (rest : List Char)
    (h : (isBetween c || c == ']' || c == '}') = false) : ValueStarts (c :: rest) := by
  simp only [Bool.or_eq_false_iff, beq_eq_false_iff_ne] at h
  exact ⟨c, rest, rfl, h.1.1, h.1.2, h.2⟩

lemma valueStarts_spelling (negative : Bool) {s : Spelling} (h : s.Valid)
    (behind : List Char) : ValueStarts (Double.signChars negative ++ s.chars ++ behind) := by
  cases negative with
  | true => exact valueStarts_cons _ rfl
  | false =>
    obtain ⟨c, rest, hwhole⟩ := List.exists_cons_of_ne_nil h.whole_ne_nil
    have hdigit : c.isDigit = true := h.whole_digits c (by simp [hwhole])
    rw [Spelling.chars, hwhole]
    exact valueStarts_cons _ (by simp [isBetween_of_isDigit, ne_of_isDigit, hdigit])

lemma valueStarts_write (layout : Layout) (level : Nat) (behind : List Char) (j : Json) :
    ValueStarts (write layout level behind j) := by
  match j with
  | null => exact valueStarts_cons _ rfl
  | bool true => exact valueStarts_cons _ rfl
  | bool false => exact valueStarts_cons _ rfl
  | string s => exact valueStarts_cons _ rfl
  | array [] => exact valueStarts_cons _ rfl
  | array (j :: rest) =>
    rw [write]
    exact valueStarts_cons _ rfl
  | object [] => exact valueStarts_cons _ rfl
  | object (m :: rest) =>
    rw [write]
    exact valueStarts_cons _ rfl
  | number n =>
    rw [write]
    cases hspelling : n.spelling? with
    | none =>
      rw [n.chars?_eq, hspelling]
      exact valueStarts_cons _ rfl
    | some s =>
      rw [n.chars?_eq, hspelling]
      exact valueStarts_spelling s.1 (JsonNumber.valid_of_spelling? hspelling) behind

lemma numberEnds_cons {c : Char} (rest : List Char)
    (h : (c.isDigit || c == '.' || c == 'e' || c == 'E') = false) :
    NumberEnds (c :: rest) := by
  simp only [Bool.or_eq_false_iff, beq_eq_false_iff_ne] at h
  intro d hd
  rw [List.head?_cons, Option.mem_some_iff] at hd
  exact hd ▸ ⟨h.1.1.1, h.1.1.2, h.1.2, h.2⟩

lemma numberEnds_break (layout : Layout) (level : Nat) {c : Char} {rest : List Char}
    (h : NumberEnds (c :: rest)) : NumberEnds (layout.break level ++ c :: rest) := by
  cases layout with
  | compact => exact h
  | pretty => exact numberEnds_cons _ rfl

/-- No number goes on where a list of written items does. -/
lemma numberEnds_writeItems (layout : Layout) (level : Nat) (behind : List Char)
    (items : List Json) :
    NumberEnds (writeItems layout level false (layout.break level ++ ']' :: behind) items) := by
  cases items with
  | nil => exact numberEnds_break layout level (numberEnds_cons _ rfl)
  | cons j rest => exact numberEnds_cons _ rfl

lemma numberEnds_writeMembers (layout : Layout) (level : Nat) (behind : List Char)
    (members : List (String × Json)) :
    NumberEnds
      (writeMembers layout level false (layout.break level ++ '}' :: behind) members) := by
  cases members with
  | nil => exact numberEnds_break layout level (numberEnds_cons _ rfl)
  | cons m rest => exact numberEnds_cons _ rfl

lemma length_write (layout : Layout) (level : Nat) (behind : List Char) (j : Json) :
    behind.length < (write layout level behind j).length := by
  obtain ⟨c, rest, hwrite, -⟩ := valueStarts_write layout level [] j
  rw [write_eq_append, hwrite, List.length_append, List.length_cons]
  omega

/-! ## Opening an array or an object -/

lemma readValue_array_zero (fuel : Nat) (text : List Char) :
    readValue fuel 0 ('[' :: text) = .error .malformed := by
  rw [readValue, skipBlanks_cons (by decide)]
  rfl

lemma readValue_array_succ (fuel depth : Nat) (text : List Char) :
    readValue fuel (depth + 1) ('[' :: text) =
      (foldItems (collectItem (readValue fuel depth)) fuel true [] text).map
        fun r => (array r.1.reverse, r.2) := by
  rw [readValue, skipBlanks_cons (by decide)]
  change ((foldItems (collectItem (readValue fuel depth)) fuel true [] text).bind
    fun r => .ok (array r.1.reverse, r.2)) = _
  cases foldItems (collectItem (readValue fuel depth)) fuel true [] text <;> rfl

lemma readValue_object_zero (fuel : Nat) (text : List Char) :
    readValue fuel 0 ('{' :: text) = .error .malformed := by
  rw [readValue, skipBlanks_cons (by decide)]
  rfl

lemma readValue_object_succ (fuel depth : Nat) (text : List Char) :
    readValue fuel (depth + 1) ('{' :: text) =
      (foldMembers (collectMember (readValue fuel depth)) fuel true [] text).map
        fun r => (object r.1.reverse, r.2) := by
  rw [readValue, skipBlanks_cons (by decide)]
  change ((foldMembers (collectMember (readValue fuel depth)) fuel true [] text).bind
    fun r => .ok (object r.1.reverse, r.2)) = _
  cases foldMembers (collectMember (readValue fuel depth)) fuel true [] text <;> rfl

/-- A value is read after the colon of its member. -/
lemma collectMember_colon (layout : Layout) (fuel depth : Nat)
    (done : List (String × Json)) (name : String) (text : List Char) :
    collectMember (readValue fuel depth) done name (layout.colon ++ text) =
      (readValue fuel depth text).map fun r => ((name, r.1) :: done, r.2) := by
  obtain ⟨rest, hcolon, hskip⟩ := readColon_colon layout text
  have hread : readValue fuel depth rest = readValue fuel depth text := by
    unfold readValue
    rw [hskip]
  rw [collectMember, hcolon]
  simp only [bind, Except.bind, hread]
  cases readValue fuel depth text <;> rfl

/-- What an array is written as between its brackets; an empty one is always written in the
compact layout. -/
lemma exists_write_array (layout : Layout) (level : Nat) (behind : List Char)
    (items : List Json) :
    ∃ l : Layout, write layout level behind (array items) =
      '[' :: writeItems l level true (l.break level ++ ']' :: behind) items := by
  cases items with
  | nil => exact ⟨.compact, rfl⟩
  | cons j rest => exact ⟨layout, by rw [write]⟩

/-- What an object is written as between its braces. -/
lemma exists_write_object (layout : Layout) (level : Nat) (behind : List Char)
    (members : List (String × Json)) :
    ∃ l : Layout, write layout level behind (object members) =
      '{' :: writeMembers l level true (l.break level ++ '}' :: behind) members := by
  cases members with
  | nil => exact ⟨.compact, rfl⟩
  | cons m rest => exact ⟨layout, by rw [write]⟩

/-! ## The main results -/

-- The induction is on the value.  The fuel of the reader does not shrink on the way down, and
-- that of a loop shrinks with every item, each of which takes at least one character: a fuel
-- that is no less than the length of the text is enough for both.
mutual

/-- **A written value is read back**, unless it opens too many arrays and objects. -/
theorem readValue_write (layout : Layout) (level fuel depth : Nat) {behind : List Char}
    (hend : NumberEnds behind) (j : Json) (hread : j.Readable)
    (hfuel : (write layout level behind j).length ≤ fuel) :
    readValue fuel depth (write layout level behind j) =
      if j.depth ≤ depth then .ok (j.reread, behind) else .error .malformed := by
  match j with
  | null =>
    rw [write, readValue_null]
    simp [Json.depth]
  | bool b =>
    rw [write, readValue_bool]
    simp [Json.depth]
  | string s =>
    rw [write, readValue_string]
    simp [Json.depth]
  | number n =>
    rw [write, readValue_number fuel depth hread hend]
    simp [Json.depth]
  | array items =>
    obtain ⟨l, hwrite⟩ := exists_write_array layout level behind items
    rw [hwrite, List.length_cons] at hfuel
    rw [hwrite, Json.depth, reread]
    cases depth with
    | zero => rw [readValue_array_zero, if_neg (by omega)]
    | succ depth =>
      have hitems := foldItems_writeItems l level fuel depth fuel true [] behind items hread
        (by omega) (by omega)
      rw [readValue_array_succ, hitems]
      simp only [Nat.add_le_add_iff_right]
      split
      · simp [Except.map]
      · rfl
  | object members =>
    obtain ⟨l, hwrite⟩ := exists_write_object layout level behind members
    rw [hwrite, List.length_cons] at hfuel
    rw [hwrite, Json.depth, reread]
    cases depth with
    | zero => rw [readValue_object_zero, if_neg (by omega)]
    | succ depth =>
      have hmembers := foldMembers_writeMembers l level fuel depth fuel true behind
        (fun done m => m :: done) [] members
        (fun m _ done text => collectMember_colon l fuel depth done m.1 text) hread (by omega)
        (by omega)
      rw [readValue_object_succ, hmembers]
      simp only [Nat.add_le_add_iff_right]
      split
      · simp [Except.map]
      · rfl

/-- The loop over the items reads them back. -/
theorem foldItems_writeItems (layout : Layout) (level fuel depth left : Nat) (first : Bool)
    (done : List Json) (behind : List Char) (items : List Json) (hread : ReadableItems items)
    (hfuel : (writeItems layout level first (layout.break level ++ ']' :: behind)
      items).length ≤ fuel)
    (hleft : (writeItems layout level first (layout.break level ++ ']' :: behind)
      items).length ≤ left) :
    foldItems (collectItem (readValue fuel depth)) left first done
        (writeItems layout level first (layout.break level ++ ']' :: behind) items) =
      if depthOfItems items ≤ depth then
        .ok ((rereadItems items).reverse ++ done, behind)
      else
        .error .malformed := by
  match items with
  | [] =>
    rw [writeItems, List.length_append, List.length_cons] at hleft
    obtain ⟨left, rfl⟩ : ∃ k, left = k + 1 := ⟨left - 1, by omega⟩
    rw [writeItems, foldItems_close, depthOfItems, if_pos (Nat.zero_le _)]
    rfl
  | j :: rest =>
    have hlength := length_write layout (level + 1)
      (writeItems layout level false (layout.break level ++ ']' :: behind) rest) j
    rw [writeItems, List.length_append, List.length_append] at hfuel hleft
    obtain ⟨left, rfl⟩ : ∃ k, left = k + 1 := ⟨left - 1, by omega⟩
    have hvalue := readValue_write layout (level + 1) fuel depth
      (numberEnds_writeItems layout level behind rest) j hread.1 (by omega)
    rw [writeItems, foldItems_item _ _ _ _ _ _ (valueStarts_write _ _ _ _), collectItem, hvalue,
      depthOfItems, rereadItems]
    by_cases hdepth : j.depth ≤ depth
    · have hrest := foldItems_writeItems layout level fuel depth left false (j.reread :: done)
        behind rest hread.2 (by omega) (by omega)
      simp only [hdepth, if_true, true_and, bind, Except.bind, pure, Except.pure, hrest,
        Nat.max_le, List.reverse_cons, List.append_assoc, List.singleton_append]
    · simp only [hdepth, if_false, false_and, bind, Except.bind, Nat.max_le]

/-- A loop over the members reads them back and pushes one after the other, provided that
its step reads the values of these members. -/
theorem foldMembers_writeMembers {σ : Type} (layout : Layout) (level fuel depth left : Nat)
    (first : Bool) (behind : List Char)
    {step : σ → String → List Char → Except Error (σ × List Char)} (push : σ → String × Json → σ)
    (state : σ) (members : List (String × Json))
    (hstep : ∀ m ∈ members, ∀ state text, step state m.1 (layout.colon ++ text) =
      (readValue fuel depth text).map fun r => (push state (m.1, r.1), r.2))
    (hread : ReadableMembers members)
    (hfuel : (writeMembers layout level first (layout.break level ++ '}' :: behind)
      members).length ≤ fuel)
    (hleft : (writeMembers layout level first (layout.break level ++ '}' :: behind)
      members).length ≤ left) :
    foldMembers step left first state
        (writeMembers layout level first (layout.break level ++ '}' :: behind) members) =
      if depthOfMembers members ≤ depth then
        .ok ((rereadMembers members).foldl push state, behind)
      else
        .error .malformed := by
  match members with
  | [] =>
    rw [writeMembers, List.length_append, List.length_cons] at hleft
    obtain ⟨left, rfl⟩ : ∃ k, left = k + 1 := ⟨left - 1, by omega⟩
    rw [writeMembers, foldMembers_close, depthOfMembers, if_pos (Nat.zero_le _)]
    rfl
  | (name, j) :: rest =>
    have hlength := length_write layout (level + 1)
      (writeMembers layout level false (layout.break level ++ '}' :: behind) rest) j
    rw [writeMembers, List.length_append, List.length_append, List.length_append,
      List.length_append] at hfuel hleft
    obtain ⟨left, rfl⟩ : ∃ k, left = k + 1 := ⟨left - 1, by omega⟩
    have hvalue := readValue_write layout (level + 1) fuel depth
      (numberEnds_writeMembers layout level behind rest) j hread.1 (by omega)
    rw [writeMembers, foldMembers_member, hstep _ List.mem_cons_self, hvalue, depthOfMembers,
      rereadMembers]
    by_cases hdepth : j.depth ≤ depth
    · have hrest := foldMembers_writeMembers layout level fuel depth left false behind push
        (push state (name, j.reread)) rest (fun m hm => hstep m (List.mem_cons_of_mem _ hm))
        hread.2 (by omega) (by omega)
      simp only [hdepth, if_true, true_and, Except.map, Except.bind, hrest, Nat.max_le,
        List.foldl_cons]
    · simp only [hdepth, if_false, false_and, Except.map, Except.bind, Nat.max_le]

end

end Json

end FencedCode
