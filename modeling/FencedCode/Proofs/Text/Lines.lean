import FencedCode.Proofs.Text.Parts
import FencedCode.Text.Lines

/-!
# Lines by their ends

The lines of a text are read off character by character.  Here they are described by the line
feeds of the text: each one ends a line, and what follows the last of them is a line too unless
it is empty, `length_lines`; the first line is what stands in front of the first line feed,
without a carriage return at its end, or the whole text if there is no line feed,
`head?_lines`.  No line has a line feed in it.
-/

namespace FencedCode.Text

/-- The number of lines by the line feeds of a text. -/
def lineCount (text : List Char) : Nat :=
  text.count '\n' + if text ≠ [] ∧ text.getLast? ≠ some '\n' then 1 else 0

/-- A line without a carriage return at its end. -/
def withoutReturn (line : List Char) : List Char :=
  if line.getLast? = some '\r' then line.dropLast else line

/-- The first line by the first line feed of a text. -/
def firstLine (text : List Char) : List Char :=
  if '\n' ∈ text then withoutReturn (text.takeWhile (· ≠ '\n')) else text

/-! ## Lines have no line feeds -/

lemma newline_not_mem_finishLine {line : List Char} (h : '\n' ∉ line) :
    '\n' ∉ finishLine line := by
  unfold finishLine
  split
  · rw [List.mem_reverse]
    exact fun hmem => h (List.mem_cons_of_mem _ hmem)
  · rwa [List.mem_reverse]

/-- What has been read of the first line has no line end either. -/
lemma newline_not_mem_of_mem_linesFrom {line text l : List Char} (hline : '\n' ∉ line)
    (h : l ∈ linesFrom line text) : '\n' ∉ l := by
  induction text generalizing line with
  | nil =>
    rw [linesFrom] at h
    split at h
    · cases h
    · rw [List.mem_singleton] at h
      rwa [h, List.mem_reverse]
  | cons c rest ih =>
    rw [linesFrom] at h
    split at h
    · rcases List.mem_cons.1 h with rfl | hlater
      · exact newline_not_mem_finishLine hline
      · exact ih List.not_mem_nil hlater
    · rename_i hc
      refine ih (fun hmem => ?_) h
      rcases List.mem_cons.1 hmem with heq | hread
      · exact hc heq.symm
      · exact hline hread

lemma newline_not_mem_of_mem_lines {text line : String} (h : line ∈ lines text) :
    '\n' ∉ line.toList := by
  obtain ⟨l, hl, rfl⟩ := List.mem_map.1 h
  rw [String.toList_ofList]
  exact newline_not_mem_of_mem_linesFrom List.not_mem_nil hl

lemma newline_not_mem_head?_lines (text : String) :
    '\n' ∉ ((lines text).head?.getD "").toList := by
  cases hlines : lines text with
  | nil => exact List.not_mem_nil
  | cons line rest => exact newline_not_mem_of_mem_lines (hlines ▸ List.mem_cons_self)

/-! ## One line feed -/

lemma lineCount_of_not_mem {text : List Char} (h : '\n' ∉ text) :
    lineCount text = if text.isEmpty then 0 else 1 := by
  have hlast : text.getLast? ≠ some '\n' := fun hlast => h (List.mem_of_getLast? hlast)
  rw [lineCount, List.count_eq_zero_of_not_mem h]
  cases text with
  | nil => rfl
  | cons c rest => simp [hlast]

/-- The first line feed ends a line. -/
lemma lineCount_append_newline {line : List Char} (h : '\n' ∉ line) (rest : List Char) :
    lineCount (line ++ '\n' :: rest) = lineCount rest + 1 := by
  rw [lineCount, lineCount, List.count_append, List.count_eq_zero_of_not_mem h,
    List.count_cons_self, List.getLast?_append_cons]
  cases rest with
  | nil => simp
  | cons c rest =>
    rw [List.getLast?_cons_cons]
    simp only [ne_eq, List.append_eq_nil_iff, reduceCtorEq, and_false, not_false_eq_true]
    omega

lemma firstLine_of_not_mem {text : List Char} (h : '\n' ∉ text) : firstLine text = text :=
  if_neg h

lemma firstLine_append_newline {line : List Char} (h : '\n' ∉ line) (rest : List Char) :
    firstLine (line ++ '\n' :: rest) = withoutReturn line := by
  rw [firstLine, if_pos (List.mem_append_right line List.mem_cons_self),
    takeWhile_append_mark h]

/-- A finished line is the line that was read, without a carriage return at its end. -/
lemma finishLine_eq (line : List Char) : finishLine line = withoutReturn line.reverse := by
  rw [finishLine.eq_def, withoutReturn, List.getLast?_reverse]
  split
  · rw [List.head?_cons, if_pos rfl, List.reverse_cons, List.dropLast_concat]
  · rename_i hreturn
    rw [if_neg]
    intro hhead
    obtain ⟨rest, rfl⟩ := List.head?_eq_some_iff.1 hhead
    exact hreturn rest rfl

/-! ## All lines -/

-- Induction on the text, with what has been read of the line as a variable: it grows until a
-- line feed ends the line, and behind the line feed the next line starts with nothing read.
lemma linesFrom_eq {line text : List Char} (hline : '\n' ∉ line) :
    (linesFrom line text).length = lineCount (line.reverse ++ text) ∧
      (linesFrom line text).head?.getD [] = firstLine (line.reverse ++ text) := by
  induction text generalizing line with
  | nil =>
    have hread : '\n' ∉ line.reverse := mt List.mem_reverse.1 hline
    rw [List.append_nil, lineCount_of_not_mem hread, firstLine_of_not_mem hread, linesFrom]
    cases line <;> simp
  | cons c rest ih =>
    rw [linesFrom]
    split
    · rename_i hc
      subst hc
      have hread : '\n' ∉ line.reverse := mt List.mem_reverse.1 hline
      obtain ⟨hlength, -⟩ := ih List.not_mem_nil
      rw [lineCount_append_newline hread, firstLine_append_newline hread, List.length_cons,
        hlength, finishLine_eq]
      exact ⟨rfl, rfl⟩
    · rename_i hc
      have hlonger : '\n' ∉ c :: line := by
        rw [List.mem_cons, not_or]
        exact ⟨Ne.symm hc, hline⟩
      have hsplit : line.reverse ++ c :: rest = (c :: line).reverse ++ rest := by simp
      rw [hsplit]
      exact ih hlonger

lemma length_lines (text : String) : (lines text).length = lineCount text.toList := by
  rw [lines, List.length_map]
  exact (linesFrom_eq List.not_mem_nil).1

lemma head?_lines (text : String) :
    ((lines text).head?.getD "").toList = firstLine text.toList := by
  have hfirst : (linesFrom [] text.toList).head?.getD [] = firstLine text.toList :=
    (linesFrom_eq List.not_mem_nil).2
  rw [← hfirst, lines, List.head?_map]
  cases (linesFrom [] text.toList).head? with
  | none => rfl
  | some l => simp

end FencedCode.Text
