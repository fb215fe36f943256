import FencedCode.Proofs.Command.Listing

/-!
# Reading a listing back

A line of a listing has three columns with tabs between them.  The first two, the position of
a block and the number of its lines, have no tabs, so the tabs in the source all belong to the
third, which is the first line of the source.  Both the number and the first line are those
that the line feeds of the source say.  The main result is `splitFirst_listing`.
-/

namespace FencedCode.Command

/-- The first two tabs of the line of a block divide its columns. -/
lemma splitFirst_blockLine (b : FoundBlock) :
    Text.splitFirst '\t' 2 (blockLine b).toList =
      [(toString b.index).toList,
        (toString (Text.lineCount b.source.toList) ++ " line(s)").toList,
        Text.firstLine b.source.toList] := by
  have hcount : '\t' ∉ (toString (Text.lineCount b.source.toList) ++ " line(s)").toList := by
    rw [String.toList_append, List.mem_append, not_or]
    exact ⟨not_mem_toString rfl _, by decide⟩
  have hline : (blockLine b).toList = (toString b.index).toList ++
      '\t' :: ((toString (Text.lineCount b.source.toList) ++ " line(s)").toList ++
        '\t' :: Text.firstLine b.source.toList) := by
    rw [← Text.length_lines, ← Text.head?_lines]
    simp [blockLine]
  rw [hline, Text.splitFirst_append (not_mem_toString rfl _), Text.splitFirst_append hcount,
    Text.splitFirst]

/-- **A listing can be read back.**  Take any blocks that are counted from zero, with any
sources.  Their listing, divided at its line feeds, has one line for each of them, and the line
of a block, divided at its first two tabs, says the position of the block, the number of lines
of its source and the first of these lines, as the line feeds of the source give them. -/
theorem splitFirst_listing {blocks : List FoundBlock} (hne : blocks ≠ [])
    (hindex : blocks.map FoundBlock.index = List.range blocks.length) :
    ((listing blocks).toList.splitOn '\n').length = blocks.length ∧
      ∀ k, (hk : k < blocks.length) →
        ∃ line, ((listing blocks).toList.splitOn '\n')[k]? = some line ∧
          Text.splitFirst '\t' 2 line =
            [(toString k).toList,
              (toString (Text.lineCount blocks[k].source.toList) ++ " line(s)").toList,
              Text.firstLine blocks[k].source.toList] := by
  rw [splitOn_toList_listing hne, List.length_map]
  refine ⟨rfl, fun k hk => ⟨(blockLine blocks[k]).toList, ?_, ?_⟩⟩
  · rw [List.getElem?_map, List.getElem?_eq_getElem hk, Option.map_some]
  · have hposition : blocks[k].index = k := by
      have hmapped := congrArg (·[k]?) hindex
      simpa [hk] using hmapped
    rw [splitFirst_blockLine, hposition]

/-- Three blocks: the first line of the first has a tab and ends with a carriage return and a
line feed, the second is empty, and the third ends with a carriage return alone. -/
def oddBlocks : List FoundBlock :=
  [⟨0, "A\t-->\tB\r\n\r\nC"⟩, ⟨1, ""⟩, ⟨2, "A\r"⟩]

/-- The three blocks are read back from their listing. -/
theorem splitFirst_listing_oddBlocks :
    oddBlocks ≠ [] ∧ oddBlocks.map FoundBlock.index = List.range oddBlocks.length ∧
      ((listing oddBlocks).toList.splitOn '\n').length = 3 ∧
      ∃ line, ((listing oddBlocks).toList.splitOn '\n')[0]? = some line ∧
        Text.splitFirst '\t' 2 line = ["0".toList, "3 line(s)".toList, "A\t-->\tB".toList] := by
  have hne : oddBlocks ≠ [] := List.cons_ne_nil _ _
  have hindex : oddBlocks.map FoundBlock.index = List.range oddBlocks.length := rfl
  obtain ⟨hlength, hlines⟩ := splitFirst_listing hne hindex
  obtain ⟨line, hline, hcolumns⟩ := hlines 0 (by decide)
  exact ⟨hne, hindex, hlength, line, hline, hcolumns.trans (by decide +kernel)⟩

end FencedCode.Command
