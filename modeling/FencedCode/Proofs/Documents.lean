import FencedCode.Proofs.Rereading

/-!
# Documents written and read again

A document that is written and read again comes back without the numbers that are not
finite, provided that the reader makes of every other number what was written, and that the
text opens no more arrays and objects than the reader allows.
-/

namespace FencedCode

open Json (Layout)

/-! ## Every number of an encoding is readable -/

lemma PropertyValue.readable_toJson (v : PropertyValue) : v.toJson.Readable := by
  match v with
  | flag on => exact trivial
  | number x => exact JsonNumber.readable_float x
  | text s => exact trivial
  | list items =>
    change Json.ReadableItems (items.map .string)
    induction items with
    | nil => exact trivial
    | cons s rest ih => exact ⟨trivial, ih⟩

lemma Properties.readable_toJson (p : Properties) : p.toJson.Readable := by
  change Json.ReadableMembers (p.entries.map fun e => (e.1, e.2.toJson))
  induction p.entries with
  | nil => exact trivial
  | cons e rest ih => exact ⟨e.2.readable_toJson, ih⟩

namespace Node

mutual

lemma readable_toJson (n : Node) : n.toJson.Readable := by
  match n with
  | root children => exact ⟨trivial, readable_toJsons children, trivial⟩
  | element tag properties children =>
    exact ⟨trivial, trivial, properties.readable_toJson, readable_toJsons children, trivial⟩
  | text value => exact ⟨trivial, trivial, trivial⟩
  | comment value => exact ⟨trivial, trivial, trivial⟩
  | doctype => exact ⟨trivial, trivial⟩

lemma readable_toJsons (nodes : List Node) : Json.ReadableItems (toJsons nodes) := by
  match nodes with
  | [] => exact trivial
  | n :: rest => exact ⟨readable_toJson n, readable_toJsons rest⟩

end

lemma readable_fields (n : Node) : Json.ReadableMembers n.fields := by
  have h := n.readable_toJson
  rw [toJson_eq] at h
  exact h.2

/-! ## The outermost node -/

lemma ne_type_of_mem_fields {n : Node} {m : String × Json} (h : m ∈ n.fields) :
    m.1 ≠ "type" := by
  have hall : ∀ m ∈ n.fields, m.1 ≠ "type" := by cases n <;> simp [fields]
  exact hall m h

/-- The kind is taken from the member `type`. -/
lemma outerMember_type (layout : Layout) (read : List Char → Except Json.Error (Json × List Char))
    (done : List (String × Json)) (k : Kind) (text : List Char) :
    outerMember read (none, done) "type" (layout.colon ++ (Json.stringChars k.name ++ text)) =
      .ok ((some k, done), text) := by
  obtain ⟨rest, hcolon, hskip⟩ :=
    Json.readColon_colon layout (Json.stringChars k.name ++ text)
  obtain ⟨hchars, hread⟩ := Json.readString_stringChars k.name text
  have hkind : readKind rest = .ok (k, text) := by
    rw [readKind, hskip, hchars, Json.skipBlanks_cons (by decide)]
    simp only [hread, bind, Except.bind, kindOfName, Kind.ofName?_name]
    rfl
  rw [outerMember, if_pos rfl, hcolon]
  simp only [hkind, bind, Except.bind]
  rfl

/-- Every other member is kept as that of any object is. -/
lemma outerMember_field (layout : Layout) (fuel depth : Nat) {name : String}
    (hname : name ≠ "type") (state : Option Kind × List (String × Json)) (text : List Char) :
    outerMember (Json.readValue fuel depth) state name (layout.colon ++ text) =
      (Json.readValue fuel depth text).map
        fun r => ((state.1, (name, r.1) :: state.2), r.2) := by
  rw [outerMember, if_neg hname, Json.collectMember_colon]
  cases Json.readValue fuel depth text <;> rfl

lemma foldl_push (kind : Option Kind) (done members : List (String × Json)) :
    members.foldl (fun state m => (state.1, m :: state.2)) (kind, done) =
      (kind, members.reverse ++ done) := by
  induction members generalizing done with
  | nil => rfl
  | cons m rest ih =>
    rw [List.foldl_cons, ih, List.reverse_cons, List.append_assoc]
    rfl

lemma readOuter_object (fuel : Nat) (text : List Char) :
    readOuter fuel ('{' :: text) =
      (Json.foldMembers (outerMember (Json.readValue fuel (Json.maxDepth - 1))) fuel true
        (none, []) text).bind fun r =>
          match r.1.1 with
          | none => .error (.misshapen (.missingField "type"))
          | some kind => .ok (.members kind r.1.2.reverse, r.2) := by
  rw [readOuter, Json.skipBlanks_cons (by decide)]
  change Except.bind (Json.foldMembers (outerMember (Json.readValue fuel (Json.maxDepth - 1)))
    fuel true (none, []) text) _ = _
  match Json.foldMembers (outerMember (Json.readValue fuel (Json.maxDepth - 1))) fuel true
    (none, []) text with
  | .error e => rfl
  | .ok ((none, members), rest) => rfl
  | .ok ((some kind, members), rest) => rfl

/-- The outermost node is read off the front of a text, unless it opens too many arrays and
objects. -/
lemma readOuter_write (layout : Layout) (n : Node) (fuel : Nat) (behind : List Char)
    (hfuel : (Json.write layout 0 behind n.toJson).length ≤ fuel) :
    readOuter fuel (Json.write layout 0 behind n.toJson) =
      if n.toJson.depth ≤ Json.maxDepth then
        .ok (.members n.kind (Json.rereadMembers n.fields), behind)
      else
        .error .malformed := by
  rw [toJson_eq, Json.write, List.length_cons, Kind.member, Json.writeMembers, Json.write,
    List.length_append, List.length_append, List.length_append, List.length_append,
    List.length_append] at hfuel
  obtain ⟨left, rfl⟩ : ∃ k, fuel = k + 1 := ⟨fuel - 1, by omega⟩
  have hfields := Json.foldMembers_writeMembers layout 0 (left + 1) (Json.maxDepth - 1) left
    false behind (fun state m => (state.1, m :: state.2)) (some n.kind, []) n.fields
    (fun m hm => outerMember_field layout (left + 1) (Json.maxDepth - 1)
      (ne_type_of_mem_fields hm)) n.readable_fields (by omega) (by omega)
  -- The kind is taken first, and the fields stand one level below the limit.
  rw [toJson_eq, Json.write, readOuter_object, Kind.member, Json.writeMembers,
    Json.foldMembers_member, Json.write, outerMember_type]
  simp only [Except.bind, hfields, Json.depth, Json.depthOfMembers, Nat.zero_max]
  by_cases hdepth : Json.depthOfMembers n.fields ≤ Json.maxDepth - 1
  · rw [if_pos hdepth, if_pos (Nat.add_le_of_le_sub (by decide) hdepth), foldl_push]
    simp
  · rw [if_neg hdepth, if_neg fun h => hdepth (Nat.le_sub_of_add_le h)]

/-- The text of a node is decoded, also with blanks behind it, unless it opens too many
arrays and objects. -/
lemma ofJsonText_append_blanks (layout : Layout) (n : Node) {blanks : String}
    (h : Json.readEnd blanks.toList = .ok ()) :
    ofJsonText (n.toJsonText layout ++ blanks) =
      .ofExcept (if n.toJson.depth ≤ Json.maxDepth then
        .ok (n.mapProperties Properties.reread)
      else
        .error .malformed) := by
  have htext : (n.toJsonText layout ++ blanks).toList =
      Json.write layout 0 blanks.toList n.toJson := by
    rw [toJsonText, Json.render, String.toList_append, String.toList_ofList,
      ← Json.write_eq_append]
  have houter := n.readOuter_write layout ((n.toJsonText layout ++ blanks).length + 1)
    blanks.toList (by rw [← htext, String.length_toList]; omega)
  rw [ofJsonText, htext, houter]
  by_cases hdepth : n.toJson.depth ≤ Json.maxDepth
  · rw [if_pos hdepth, if_pos hdepth]
    change (readMembers n.kind {} (Json.rereadMembers n.fields) >>= ofFields n.kind) >>=
      (fun n => Logged.ofExcept (Json.readEnd blanks.toList) >>= fun _ => pure n) = _
    rw [ofFields_reread_fields, h]
    rfl
  · rw [if_neg hdepth, if_neg hdepth]
    rfl

end Node

/-! ## Documents -/

/-- The document with its numbers as they are read back, without those that have no text. -/
def Root.reread (r : Root) : Root :=
  r.mapProperties Properties.reread

/-- The text of a document is decoded, also with blanks behind it, unless it opens too many
arrays and objects. -/
lemma Root.ofJsonText_append_blanks (layout : Layout) (r : Root) {blanks : String}
    (h : Json.readEnd blanks.toList = .ok ()) :
    Root.ofJsonText (r.toJsonText layout ++ blanks) =
      .ofExcept (if r.node.toJson.depth ≤ Json.maxDepth then
        .ok r.reread
      else
        .error (.json .malformed)) := by
  have hnode := r.node.ofJsonText_append_blanks layout h
  rw [Node.toJsonText] at hnode
  rw [ofJsonText, toJsonText, hnode]
  split <;> rfl

/-- The text of a document is decoded, unless it opens too many arrays and objects. -/
theorem Root.ofJsonText_toJsonText_eq_reread (layout : Layout) (r : Root) :
    Root.ofJsonText (r.toJsonText layout) =
      .ofExcept (if r.node.toJson.depth ≤ Json.maxDepth then
        .ok r.reread
      else
        .error (.json .malformed)) := by
  have h := r.ofJsonText_append_blanks layout (show Json.readEnd "".toList = .ok () from rfl)
  rwa [String.append_empty] at h

/-- Numbers that are read back as what they are stay, and those without a text are
dropped. -/
lemma Root.reread_eq_withoutNonFinite {r : Root}
    (h : ∀ x ∈ r.numbers, x.isFinite = true → x.reread? = some x) :
    r.reread = r.withoutNonFinite := by
  refine mapProperties_congr fun e he => NameMap.filterMap_congr fun entry hentry => ?_
  obtain ⟨name, v⟩ := entry
  cases v with
  | number x =>
    have hx := h x (mem_numbers he (Properties.mem_numbers hentry))
    rw [PropertyValue.reread?, PropertyValue.finite?]
    cases hfinite : x.isFinite with
    | true => rw [hx hfinite, if_pos rfl, Option.map_some]
    | false =>
      rw [Double.reread?_of_not_isFinite hfinite, if_neg (by decide), Option.map_none]
  | flag on => rfl
  | text s => rfl
  | list items => rfl

/-- Within the limit a document without numbers comes back as it was written. -/
lemma Root.ofJsonText_toJsonText_of_numbers_eq_nil (layout : Layout) {r : Root}
    (hnumbers : r.numbers = []) (hdepth : r.node.toJson.depth ≤ Json.maxDepth) :
    Root.ofJsonText (r.toJsonText layout) = .ofExcept (.ok r) := by
  have hsame : r.reread = r := by
    rw [reread_eq_withoutNonFinite (by simp [hnumbers]), withoutNonFinite_eq_self (by simp [hnumbers])]
  rw [ofJsonText_toJsonText_eq_reread, if_pos hdepth, hsame]

/-- **A document that is written and read again comes back** in either layout, exactly if
its text opens at most 127 arrays and objects at once; otherwise the text is refused as
malformed.  Every number is what the reader makes of its text.  Where that is the number
itself, nothing but the numbers that are not finite is gone, and if there are none of them
the document is the one that was written. -/
theorem Root.json_round_trip (layout : Layout) (r : Root) :
    Root.ofJsonText (r.toJsonText layout) =
        .ofExcept (if r.node.toJson.depth ≤ 127 then .ok r.reread
          else .error (.json .malformed)) ∧
      ((∀ x ∈ r.numbers, x.isFinite = true → x.reread? = some x) →
        r.reread = r.withoutNonFinite) ∧
      ((∀ x ∈ r.numbers, x.isFinite = true) → r.withoutNonFinite = r) := by
  refine ⟨r.ofJsonText_toJsonText_eq_reread layout, fun hread => ?_, fun hfinite => ?_⟩
  · exact Root.reread_eq_withoutNonFinite hread
  · exact Root.withoutNonFinite_eq_self hfinite

/-- A document with one element. -/
def cellDocument (properties : Properties) : Root :=
  ⟨[.doctype, .element "td" properties [.text "7\n", .comment "\"seven\""]]⟩

/-- Properties of which one is a number and one may follow. -/
def cellProperties (width : List (String × PropertyValue)) : Properties :=
  .ofList ([("colSpan", .number (.ofNat 7)), ("className", .list ["wide"])] ++ width)

theorem Root.json_round_trip_cellDocument :
    Root.ofJsonText ((cellDocument (cellProperties [("width", .number .nan)])).toJsonText
      .pretty) = .ofExcept (.ok (cellDocument (cellProperties []))) := by
  have hdropped : (cellProperties [("width", .number .nan)]).withoutNonFinite =
      cellProperties [] := by
    decide +kernel
  obtain ⟨hread, hnumbers, -⟩ :=
    Root.json_round_trip .pretty (cellDocument (cellProperties [("width", .number .nan)]))
  rw [hread, if_pos (by decide), hnumbers (by decide +kernel), ← hdropped]
  rfl

/-- The premise on numbers is needed: the reader rounds twice, and makes of the text of this
whole number the number below it. -/
example : (Double.ofNat 9007199254740991).reread? = some (.ofNat 9007199254740990) := by
  decide +kernel

end FencedCode
