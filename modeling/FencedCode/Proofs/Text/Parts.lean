import Mathlib.Data.List.Basic
import Mathlib.Tactic.Lemma

/-!
# Parts of a text up to a mark

A text is divided at the first occurrence of a mark into what stands in front of it and what
follows it.  `splitFirst` does this several times, and leaves later marks alone.
-/

namespace FencedCode.Text

lemma takeWhile_append_of_not_mem {mark : Char} {front : List Char} (h : mark ∉ front)
    (rest : List Char) :
    (front ++ rest).takeWhile (· ≠ mark) = front ++ rest.takeWhile (· ≠ mark) := by
  refine List.takeWhile_append_of_pos fun c hc => decide_eq_true ?_
  rintro rfl
  exact h hc

/-- What stands in front of the first mark. -/
lemma takeWhile_append_mark {mark : Char} {front : List Char} (h : mark ∉ front)
    (rest : List Char) : (front ++ mark :: rest).takeWhile (· ≠ mark) = front := by
  rw [takeWhile_append_of_not_mem h, List.takeWhile_cons_of_neg (by simp), List.append_nil]

/-- What is left from the first mark on. -/
lemma dropWhile_append_mark {mark : Char} {front : List Char} (h : mark ∉ front)
    (rest : List Char) : (front ++ mark :: rest).dropWhile (· ≠ mark) = mark :: rest := by
  have hparts := List.takeWhile_append_dropWhile
    (p := fun c => decide (c ≠ mark)) (l := front ++ mark :: rest)
  rw [takeWhile_append_mark h] at hparts
  exact List.append_cancel_left hparts

/-- The parts of a text between its first `n` marks, and what follows the last of these. -/
def splitFirst (mark : Char) : Nat → List Char → List (List Char)
  | 0, text => [text]
  | n + 1, text =>
    if mark ∈ text then
      text.takeWhile (· ≠ mark) :: splitFirst mark n (text.dropWhile (· ≠ mark)).tail
    else [text]

/-- The first mark ends the first part. -/
lemma splitFirst_append {mark : Char} {part : List Char} (h : mark ∉ part) (n : Nat)
    (rest : List Char) :
    splitFirst mark (n + 1) (part ++ mark :: rest) = part :: splitFirst mark n rest := by
  rw [splitFirst, if_pos (List.mem_append_right part List.mem_cons_self),
    takeWhile_append_mark h, dropWhile_append_mark h, List.tail_cons]

end FencedCode.Text
