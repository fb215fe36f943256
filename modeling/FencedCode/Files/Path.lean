import FencedCode.Text.Split

/-!
# Paths

A path is a text of names with slashes between them.  It is looked at in two ways: as the
row of all its segments, empty ones included, which is how a place is looked up, and as a
row of parts, which is how the directory that holds a file is found.
-/

namespace FencedCode.Files

/-- The texts between the slashes of a path. -/
def segments (path : String) : List String :=
  (Text.split '/' path.toList).map String.ofList

/-- Whether a path starts at the top of all places. -/
def isAbsolute (path : String) : Bool :=
  path.toList.head? = some '/'

/-- The parts of a path: segments that are empty or a single dot do not count, except for a
dot at the very start. -/
def parts (path : String) : List String :=
  match segments path with
  | "." :: rest => "." :: rest.filter fun s => s ≠ "" ∧ s ≠ "."
  | all => all.filter fun s => s ≠ "" ∧ s ≠ "."

/-- Whether a path is longer than any path may be, which is 4095 bytes. -/
def isTooLong (path : String) : Bool :=
  path.utf8ByteSize > 4095

/-- Whether a text holds a character that no name can hold. -/
def holdsNul (text : String) : Bool :=
  text.toList.contains '\x00'

/-- The path of the directory that holds a file: the path up to the part in front of the
last one. -/
def parentOf (path : String) : String :=
  let isNoPart (s : String) : Bool := s = "" || s = "."
  let above := ((segments path).reverse.dropWhile isNoPart).drop 1
  "/".intercalate (above.dropWhile isNoPart).reverse

end FencedCode.Files
