import FencedCode.Block.Wrapper
import FencedCode.Text.Lines

/-!
# The listing of blocks

A listing has one line for each block that was found: its position, the number of lines of
its source, and the first of these lines, with tabs between them.
-/

namespace FencedCode.Command

/-- The line of a block. -/
def blockLine (b : FoundBlock) : String :=
  let lines := Text.lines b.source
  toString b.index ++ "\t" ++ toString lines.length ++ " line(s)\t" ++ lines.head?.getD ""

/-- The lines of several blocks. -/
def listing (blocks : List FoundBlock) : String :=
  "\n".intercalate (blocks.map blockLine)

end FencedCode.Command
