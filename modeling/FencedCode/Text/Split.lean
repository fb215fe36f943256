/-!
# Splitting at a mark

A text is split at every occurrence of a character; the pieces between two marks, before the
first and after the last one are kept even if they are empty.  The first mark decides what
the first piece is (`split_append_mark`), and a text without a mark is one piece
(`split_of_not_mem`).
-/

namespace FencedCode.Text

/-- Puts a character in front of the first of several pieces. -/
def consFirst (c : Char) : List (List Char) → List (List Char)
  | [] => [[c]]
  | piece :: rest => (c :: piece) :: rest

/-- The pieces of a text between its marks. -/
def split (mark : Char) : List Char → List (List Char)
  | [] => [[]]
  | c :: rest => if c = mark then [] :: split mark rest else consFirst c (split mark rest)

theorem split_ne_nil (mark : Char) (text : List Char) : split mark text ≠ [] := by
  cases text with
  | nil => simp [split]
  | cons c rest =>
    rw [split]
    split
    · simp
    · cases split mark rest <;> simp [consFirst]

/-- A text without a mark is one piece. -/
theorem split_of_not_mem {mark : Char} {text : List Char} (h : mark ∉ text) :
    split mark text = [text] := by
  induction text with
  | nil => rfl
  | cons c rest ih =>
    rw [List.mem_cons, not_or] at h
    rw [split, if_neg (Ne.symm h.1), ih h.2, consFirst]

/-- The first mark ends the first piece. -/
theorem split_append_mark {mark : Char} {piece : List Char} (h : mark ∉ piece)
    (rest : List Char) : split mark (piece ++ mark :: rest) = piece :: split mark rest := by
  induction piece with
  | nil => simp [split]
  | cons c piece ih =>
    rw [List.mem_cons, not_or] at h
    rw [List.cons_append, split, if_neg (Ne.symm h.1), ih h.2, consFirst]

end FencedCode.Text
