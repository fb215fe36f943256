/-!
# Lines of a text

A line ends with a line feed, and a carriage return directly before the line feed belongs
to the line end.  What follows the last line feed is a line too unless it is empty.
-/

namespace FencedCode.Text

/-- A finished line, given in reverse, without a carriage return at its end. -/
def finishLine : List Char → List Char
  | '\r' :: line => line.reverse
  | line => line.reverse

/-- The lines of a text, `line` being the part of the first one that is already read, in
reverse. -/
def linesFrom (line : List Char) : List Char → List (List Char)
  | [] => if line.isEmpty then [] else [line.reverse]
  | c :: rest =>
    if c = '\n' then finishLine line :: linesFrom [] rest else linesFrom (c :: line) rest

/-- The lines of a text without their ends. -/
def lines (text : String) : List String :=
  (linesFrom [] text.toList).map String.ofList

end FencedCode.Text
