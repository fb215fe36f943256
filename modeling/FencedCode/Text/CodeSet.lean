/-!
# Sets of characters

A Unicode property is a set of code points that is best listed by the places at which
membership changes.
-/

namespace FencedCode.Text

/-- A set of code points, given in increasing order by those at which membership
changes; zero is a member only if it is listed. -/
structure CodeSet where
  /-- The code points at which membership changes. -/
  changes : List Nat

/-- A code point is a member if membership has changed an odd number of times up to it. -/
def CodeSet.contains (set : CodeSet) (c : Char) : Bool :=
  (set.changes.takeWhile (· ≤ c.toNat)).length % 2 = 1

end FencedCode.Text
