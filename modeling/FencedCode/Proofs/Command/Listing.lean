import FencedCode.Command.Listing
import FencedCode.Proofs.Text.Lines

/-!
# Lines of a listing

A source can have any line ends, but its lines have none, and neither have numbers; so no
line of a listing is broken.  A listing falls into one line for each block,
`splitOn_toList_listing`, and with a line end behind it nothing stands behind that,
`splitOn_listing`.
-/

namespace FencedCode.Command

/-- Only digits are written for a number. -/
lemma not_mem_toString {c : Char} (h : c.isDigit = false) (n : Nat) : c ∉ (toString n).toList := by
  rw [Nat.toString_eq_repr, Nat.toList_repr]
  intro hmem
  have hdigit := Nat.isDigit_of_mem_toDigits (by decide) (by decide) hmem
  rw [h] at hdigit
  exact Bool.false_ne_true hdigit

lemma newline_not_mem_blockLine (b : FoundBlock) : '\n' ∉ (blockLine b).toList := by
  have hcount : '\n' ∉ " line(s)\t".toList := by decide
  have htab : '\n' ∉ "\t".toList := by decide
  simp only [blockLine, String.toList_append, List.mem_append, not_or]
  exact ⟨⟨⟨⟨not_mem_toString rfl _, htab⟩, not_mem_toString rfl _⟩, hcount⟩,
    Text.newline_not_mem_head?_lines b.source⟩

/-- A listing falls into the lines of its blocks. -/
lemma splitOn_toList_listing {blocks : List FoundBlock} (h : blocks ≠ []) :
    (listing blocks).toList.splitOn '\n' = blocks.map fun b => (blockLine b).toList := by
  rw [listing, String.toList_intercalate, List.map_map]
  refine List.splitOn_intercalate '\n' (fun row hrow => ?_) (by simpa using h)
  obtain ⟨b, -, rfl⟩ := List.mem_map.1 hrow
  exact newline_not_mem_blockLine b

/-- Nothing stands behind the line end that follows a listing. -/
lemma splitOn_listing {blocks : List FoundBlock} (h : blocks ≠ []) :
    (listing blocks ++ "\n").toList.splitOn '\n' =
      blocks.map (fun b => (blockLine b).toList) ++ [[]] := by
  have hend : (listing blocks ++ "\n").toList = (listing blocks).toList ++ ['\n'] := by simp
  rw [hend, List.splitOn_append_cons_self, List.splitOn_nil, splitOn_toList_listing h]

end FencedCode.Command
