/-!
# Patterns

A pattern is a regular expression: it says which texts the field of an event may hold.  No
event is ever asked for the content of a field, so all that counts is whether a pattern can
be used, and of a pattern is kept what decides that.
-/

namespace FencedCode

/-- The smallest parts of a pattern. -/
inductive Pattern.Atom where
  /-- A character; `isByte` says that it is written as the code of a byte. -/
  | literal (c : Char) (isByte : Bool)
  /-- Any character of a line. -/
  | any
  /-- A place in a text that does not depend on what words are. -/
  | place
  /-- The edge of a word, or any place but one. -/
  | wordEdge
  /-- A digit, a blank or a character of words, or any other character. -/
  | kind (negated : Bool)
  deriving DecidableEq

/-- A set of characters, written in brackets. -/
structure Pattern.CharSet where
  /-- Whether anything in it is turned into its opposite. -/
  negation : Bool
  /-- Whether a set of ASCII characters is named in it. -/
  named : Bool
  /-- The characters in it and the ends of the ranges in it. -/
  atoms : List Pattern.Atom
  /-- How deep its parts are nested. -/
  depth : Nat
  deriving DecidableEq

/-- Letters that switch something on or off. -/
structure Pattern.Switches where
  /-- What is switched on. -/
  on : List Char
  /-- What is switched off. -/
  off : List Char
  deriving DecidableEq

/-- Whether something is on after letters have switched it, given whether it was before. -/
def Pattern.Switches.apply (s : Pattern.Switches) (letter : Char) (before : Bool) : Bool :=
  if s.on.contains letter then true else if s.off.contains letter then false else before

/-- How a group is written. -/
inductive Pattern.Label where
  /-- Between parentheses. -/
  | plain
  /-- With a name. -/
  | named (name : List Char)
  /-- With letters that hold in the group. -/
  | switched (s : Pattern.Switches)
  deriving DecidableEq

/-- A regular expression. -/
inductive Pattern where
  | atom (a : Pattern.Atom)
  | set (s : Pattern.CharSet)
  /-- Letters that hold up to the end of the group. -/
  | switches (s : Pattern.Switches)
  /-- A pattern for any number of times. -/
  | repeated (p : Pattern)
  | group (label : Pattern.Label) (p : Pattern)
  /-- Patterns one after the other. -/
  | sequence (ps : List Pattern)
  /-- Patterns of which one is chosen. -/
  | choice (ps : List Pattern)

namespace Pattern

/-- Patterns one after the other, or the only one. -/
def ofSequence : List Pattern → Pattern
  | [p] => p
  | ps => .sequence ps

/-- Patterns of which one is chosen, or the only one. -/
def ofChoice : List Pattern → Pattern
  | [p] => p
  | ps => .choice ps

mutual

/-- How deep the parts of a pattern are nested. -/
def depth : Pattern → Nat
  | atom _ => 0
  | set s => 1 + s.depth
  | switches _ => 0
  | repeated p => 1 + p.depth
  | group _ p => 1 + p.depth
  | sequence [] => 0
  | sequence ps => 1 + depthOfAll ps
  | choice ps => 1 + depthOfAll ps

/-- How deep the parts of several patterns are nested at most. -/
def depthOfAll : List Pattern → Nat
  | [] => 0
  | p :: rest => max p.depth (depthOfAll rest)

end

mutual

/-- The names of the groups of a pattern. -/
def names : Pattern → List (List Char)
  | atom _ => []
  | set _ => []
  | switches _ => []
  | repeated p => p.names
  | group (.named name) p => name :: p.names
  | group _ p => p.names
  | sequence ps => namesOfAll ps
  | choice ps => namesOfAll ps

/-- The names of the groups of several patterns. -/
def namesOfAll : List Pattern → List (List Char)
  | [] => []
  | p :: rest => p.names ++ namesOfAll rest

end

end Pattern

end FencedCode
