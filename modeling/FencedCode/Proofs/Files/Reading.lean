import FencedCode.Files.Tree
import FencedCode.Proofs.Outcomes

/-!
# Reading files

A path leads to a place where something stands, through directories that let it through.  What
stands there is a directory or a file, and the text of a file that can be read is the one whose
bytes the file holds, if there is one.
-/

namespace FencedCode

/-! ## Texts and their bytes -/

lemma textOfBytes_toUTF8 (text : String) : textOfBytes text.toUTF8 = .ok text := by
  have hbytes : String.fromUTF8? text.toUTF8 = some text := dif_pos text.isValidUTF8
  rw [textOfBytes, hbytes]

/-- Bytes are the text that they come from, or not valid if they come from none. -/
lemma textOfBytes_cases (bytes : ByteArray) :
    (∃ text : String, bytes = text.toUTF8 ∧ textOfBytes bytes = .ok text) ∨
      (∀ text : String, bytes ≠ text.toUTF8) ∧ textOfBytes bytes = .error .invalidUtf8 := by
  by_cases hvalid : bytes.IsValidUTF8
  · have hsome : String.fromUTF8? bytes = some ⟨bytes, hvalid⟩ := dif_pos hvalid
    exact .inl ⟨⟨bytes, hvalid⟩, rfl, by rw [textOfBytes, hsome]⟩
  · refine .inr ⟨fun text h => hvalid (h ▸ text.isValidUTF8), ?_⟩
    have hnone : String.fromUTF8? bytes = none := dif_neg hvalid
    rw [textOfBytes, hnone]

lemma textOfBytes_eq_ok_iff {bytes : ByteArray} {text : String} :
    textOfBytes bytes = .ok text ↔ bytes = text.toUTF8 := by
  constructor
  · intro h
    rcases textOfBytes_cases bytes with ⟨text', rfl, htext⟩ | ⟨-, hfails⟩
    · rw [htext] at h
      rw [Except.ok.inj h]
    · rw [hfails] at h
      cases h
  · rintro rfl
    exact textOfBytes_toUTF8 text

namespace FileTree

open Files

variable {tree : FileTree}

/-- The text of the file at a place, which can be read. -/
structure HoldsText (tree : FileTree) (place : List String) (text : String) : Prop where
  entry : tree.lookup place = some (.file text.toUTF8)
  readable : (tree.accessAt place).read = true

lemma textAt_of_not_readable {place : List String} (hsome : (tree.lookup place).isSome = true)
    (h : (tree.accessAt place).read = false) :
    tree.textAt place = .error .permissionDenied := by
  obtain ⟨entry, hentry⟩ := Option.isSome_iff_exists.1 hsome
  rw [textAt, contentAt, hentry]
  simp only [h, if_true]
  rfl

lemma textAt_of_directory {place : List String} (h : tree.lookup place = some .directory)
    (hread : (tree.accessAt place).read = true) :
    tree.textAt place = .error .isADirectory := by
  rw [textAt, contentAt, h]
  simp only [hread, Bool.true_eq_false, if_false]
  rfl

lemma textAt_of_file {place : List String} {bytes : ByteArray}
    (h : tree.lookup place = some (.file bytes)) (hread : (tree.accessAt place).read = true) :
    tree.textAt place = textOfBytes bytes := by
  rw [textAt, contentAt, h]
  simp only [hread, Bool.true_eq_false, if_false]
  rfl

lemma textAt_of_not_text {place : List String} {bytes : ByteArray}
    (h : tree.lookup place = some (.file bytes)) (hread : (tree.accessAt place).read = true)
    (hbytes : ∀ text : String, bytes ≠ text.toUTF8) :
    tree.textAt place = .error .invalidUtf8 := by
  rw [textAt_of_file h hread]
  rcases textOfBytes_cases bytes with ⟨text, htext, -⟩ | ⟨-, h⟩
  · exact absurd htext (hbytes text)
  · exact h

lemma textAt_of_holdsText {place : List String} {text : String}
    (h : tree.HoldsText place text) : tree.textAt place = .ok text := by
  rw [textAt_of_file h.entry h.readable, textOfBytes_toUTF8]

/-- A text can be got from a place only if the place holds it. -/
lemma holdsText_of_textAt {place : List String} {text : String}
    (h : tree.textAt place = .ok text) : tree.HoldsText place text := by
  cases hentry : tree.lookup place with
  | none =>
    rw [textAt, contentAt, hentry] at h
    cases h
  | some entry =>
    cases hread : (tree.accessAt place).read with
    | false =>
      rw [textAt_of_not_readable (Option.isSome_of_eq_some hentry) hread] at h
      cases h
    | true =>
      cases entry with
      | directory =>
        rw [textAt_of_directory hentry hread] at h
        cases h
      | file bytes =>
        rw [textAt_of_file hentry hread] at h
        obtain rfl := textOfBytes_eq_ok_iff.1 h
        exact ⟨hentry, hread⟩

/-! ## Paths -/

lemma walk_nil_eq_ok_iff {place dest : List String} :
    tree.walk place [] = .ok dest ↔ place = dest ∧ (tree.lookup place).isSome = true := by
  rw [walk]
  split
  · rename_i hsome
    simp [hsome]
  · rename_i hnone
    simp [hnone]

/-- Whether a walk can go on from a place by a segment. -/
structure LetsThrough (tree : FileTree) (place : List String) (segment : String) : Prop where
  directory : tree.lookup place = some .directory
  search : segment ≠ "" → (tree.accessAt place).search = true
  size : segment.utf8ByteSize ≤ 255

/-- A walk goes on from directories that let it through only. -/
lemma walk_cons_eq_ok_iff {place dest : List String} {segment : String} {rest : List String} :
    tree.walk place (segment :: rest) = .ok dest ↔
      tree.LetsThrough place segment ∧ tree.walk (next place segment) rest = .ok dest := by
  have hno : tree.lookup place ≠ some .directory → ¬tree.LetsThrough place segment :=
    fun hne h => hne h.directory
  rw [walk]
  cases hplace : tree.lookup place with
  | none => exact iff_of_false (by simp) fun h => hno (by simp [hplace]) h.1
  | some entry =>
    cases entry with
    | file content => exact iff_of_false (by simp) fun h => hno (by simp [hplace]) h.1
    | directory =>
      dsimp only
      split
      · rename_i hclosed
        refine iff_of_false (by simp) fun h => ?_
        rw [h.1.search hclosed.1] at hclosed
        exact Bool.noConfusion hclosed.2
      · rename_i hopen
        split
        · rename_i hlong
          exact iff_of_false (by simp) fun h => Nat.not_le.2 hlong h.1.size
        · rename_i hshort
          refine ⟨fun h => ⟨⟨hplace, fun hne => ?_, Nat.not_lt.1 hshort⟩, h⟩, And.right⟩
          exact Bool.of_not_eq_false fun h => hopen ⟨hne, h⟩

/-- A walk ends where something stands. -/
lemma isSome_lookup_of_walk {place dest : List String} {way : List String}
    (h : tree.walk place way = .ok dest) : (tree.lookup dest).isSome = true := by
  induction way generalizing place with
  | nil =>
    obtain ⟨rfl, hsome⟩ := walk_nil_eq_ok_iff.1 h
    exact hsome
  | cons segment rest ih =>
    obtain ⟨-, h⟩ := walk_cons_eq_ok_iff.1 h
    exact ih h

/-- What a path leads to exists. -/
lemma isSome_lookup_of_resolve {cwd place : List String} {path : String}
    (h : tree.resolve cwd path = .ok place) : (tree.lookup place).isSome = true := by
  rw [resolve] at h
  split at h
  · cases h
  · split at h
    · cases h
    · exact isSome_lookup_of_walk h

lemma pathExists_iff {cwd : List String} {path : String} :
    tree.pathExists cwd path = true ↔ ∃ place, tree.resolve cwd path = .ok place := by
  rw [pathExists]
  cases tree.resolve cwd path with
  | error e => simp [Except.toOption]
  | ok place => simp [Except.toOption]

lemma readText_of_resolve {cwd place : List String} {path : String}
    (h : tree.resolve cwd path = .ok place) : tree.readText cwd path = tree.textAt place := by
  rw [readText, h]
  rfl

/-- A text can be got by a path only if the path leads to a place that holds it. -/
lemma readText_eq_ok_iff {cwd : List String} {path text : String} :
    tree.readText cwd path = .ok text ↔
      ∃ place, tree.resolve cwd path = .ok place ∧ tree.HoldsText place text := by
  constructor
  · intro h
    obtain ⟨place, hplace, htext⟩ := exists_of_bind_eq_ok h
    exact ⟨place, hplace, holdsText_of_textAt htext⟩
  · rintro ⟨place, hplace, htext⟩
    rw [readText, hplace]
    exact textAt_of_holdsText htext

end FileTree

end FencedCode
