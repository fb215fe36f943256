import FencedCode.Text.Blank
import Mathlib.Tactic.Lemma

/-!
# Words and the text that they are joined to

The words of a text are the parts between its blanks that are not empty, `words_eq_parts`.  Texts
that are joined with a space between each two of them are the words of the whole exactly if
each of them is a word on its own, `words_intercalate_eq_iff`: a blank inside one of them
would divide it, and an empty one would get lost.
-/

namespace FencedCode.Text

/-- The parts of a text between its blanks, without the empty ones. -/
def parts (s : String) : List String :=
  ((s.toList.splitOnP isAsciiBlank).filter fun w => !w.isEmpty).map String.ofList

/-- A word on its own: it is not empty, and no blank divides it. -/
def IsWord (s : String) : Prop :=
  s ≠ "" ∧ ∀ c ∈ s.toList, isAsciiBlank c = false

instance (s : String) : Decidable (IsWord s) :=
  decidable_of_iff (s ≠ "" ∧ s.toList.all (fun c => !isAsciiBlank c) = true) (by simp [IsWord])

/-! ## Parts between blanks -/

lemma wordsFrom_eq (word text : List Char) :
    wordsFrom word text =
      (List.splitOnPPrepend isAsciiBlank text word).filter fun w => !w.isEmpty := by
  induction text generalizing word with
  | nil => cases word <;> simp [wordsFrom, consWord]
  | cons c rest ih =>
    rw [wordsFrom, List.splitOnPPrepend_cons_eq_if]
    split
    · cases word <;> simp [consWord, ih]
    · exact ih (c :: word)

/-- The words of a text are the non-empty parts between its blanks. -/
lemma words_eq_parts (s : String) : words s = parts s := by
  rw [words, parts, wordsFrom_eq, List.splitOnP_eq_splitOnPPrepend]

/-! ## What is a word -/

/-- A finished word is not empty, and it has no blank if what has been read of it has none. -/
lemma of_mem_consWord {word w : List Char} {rest : List (List Char)}
    (hword : ∀ c ∈ word, isAsciiBlank c = false) (h : w ∈ consWord word rest) :
    (w ≠ [] ∧ ∀ c ∈ w, isAsciiBlank c = false) ∨ w ∈ rest := by
  rw [consWord] at h
  split at h
  · exact .inr h
  · rename_i hne
    rcases List.mem_cons.1 h with rfl | hlater
    · exact .inl ⟨by simpa using hne, fun c hc => hword c (List.mem_reverse.1 hc)⟩
    · exact .inr hlater

lemma of_mem_wordsFrom {word text w : List Char}
    (hword : ∀ c ∈ word, isAsciiBlank c = false) (h : w ∈ wordsFrom word text) :
    w ≠ [] ∧ ∀ c ∈ w, isAsciiBlank c = false := by
  induction text generalizing word with
  | nil => exact (of_mem_consWord hword h).resolve_right List.not_mem_nil
  | cons c rest ih =>
    rw [wordsFrom] at h
    split at h
    · rcases of_mem_consWord hword h with hw | hlater
      · exact hw
      · exact ih (List.forall_mem_nil _) hlater
    · rename_i hc
      exact ih (List.forall_mem_cons.2 ⟨eq_false_of_ne_true hc, hword⟩) h

lemma isWord_of_mem_words {s w : String} (h : w ∈ words s) : IsWord w := by
  obtain ⟨cs, hcs, rfl⟩ := List.mem_map.1 h
  obtain ⟨hne, hblank⟩ := of_mem_wordsFrom (List.forall_mem_nil _) hcs
  exact ⟨by simpa using hne, by rwa [String.toList_ofList]⟩

/-! ## Joining words -/

/-- A blank ends the last word in front of it. -/
lemma words_append_blank {c : Char} (hc : isAsciiBlank c = true) (s : String) (back : List Char) :
    words (String.ofList (s.toList ++ c :: back)) = words s ++ words (String.ofList back) := by
  simp only [words_eq_parts, parts, String.toList_ofList,
    List.splitOnP_append_cons s.toList back hc, List.filter_append, List.map_append]

lemma IsWord.words_eq_singleton {w : String} (h : IsWord w) : words w = [w] := by
  rw [words_eq_parts, parts, List.splitOnP_eq_singleton h.2]
  simp [h.1]

lemma words_intercalate {ws : List String} (h : ∀ w ∈ ws, IsWord w) :
    words (" ".intercalate ws) = ws := by
  induction ws with
  | nil => rfl
  | cons w rest ih =>
    obtain ⟨hw, hrest⟩ := List.forall_mem_cons.1 h
    cases rest with
    | nil => rw [String.intercalate_singleton, hw.words_eq_singleton]
    | cons v rest =>
      have hjoined : " ".intercalate (w :: v :: rest) =
          String.ofList (w.toList ++ ' ' :: (" ".intercalate (v :: rest)).toList) := by
        rw [← String.toList_inj]
        simp
      rw [hjoined, words_append_blank (by decide), String.ofList_toList, hw.words_eq_singleton,
        ih hrest, List.singleton_append]

/-- Joined texts are the words of the whole exactly if each is a word. -/
lemma words_intercalate_eq_iff {ws : List String} :
    words (" ".intercalate ws) = ws ↔ ∀ w ∈ ws, IsWord w := by
  refine ⟨fun h w hw => ?_, words_intercalate⟩
  rw [← h] at hw
  exact isWord_of_mem_words hw

end FencedCode.Text
