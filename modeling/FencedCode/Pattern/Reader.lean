import FencedCode.Json.Text
import FencedCode.Pattern.Basic
import FencedCode.Text.Alphanumeric
import FencedCode.Text.Blank

/-!
# Reading patterns

The patterns that are read have no closing brace in them, since braces enclose the field
that they belong to.  Whatever needs one is therefore faulty: counts of repetitions, names
of properties, and codes of any length.

A letter can make blanks and comments meaningless; `free` says whether it has.
-/

namespace FencedCode.Pattern

/-! ## Blanks -/

/-- The text from its first character on that is neither a blank nor in a comment. -/
def skipBlanks (inComment : Bool) : List Char → List Char
  | [] => []
  | c :: rest =>
    if inComment then skipBlanks (c ≠ '\n') rest
    else if Text.isBlank c then skipBlanks false rest
    else if c = '#' then skipBlanks true rest
    else c :: rest

/-- The text from its first character on that has a meaning. -/
def skip (free : Bool) (text : List Char) : List Char :=
  if free then skipBlanks false text else text

/-- The character that follows another, given what stands behind that; if blanks have no
meaning, it is looked for behind blanks and behind the mark of a comment. -/
def following (free : Bool) (text : List Char) : Option Char :=
  if free then
    match text.filter fun c => !Text.isBlank c with
    | [] => text.head?
    | ['#'] => text.head?
    | '#' :: c :: _ => some c
    | c :: _ => some c
  else
    text.head?

/-! ## Escapes -/

/-- The number of digits of a code, by the letter in front of it. -/
def codeDigits? : Char → Option Nat
  | 'x' => some 2
  | 'u' => some 4
  | 'U' => some 8
  | _ => none

/-- Reads the code of a character, of which so many digits are left. -/
def readCode (free isByte : Bool) : Nat → Nat → List Char → Option (Atom × List Char)
  | 0, value, text =>
    if value.isValidChar then some (.literal (Char.ofNat value) isByte, text) else none
  | left + 1, value, text =>
    match skip free text with
    | [] => none
    | c :: rest => do readCode free isByte left (16 * value + (← Json.hexValue? c)) rest

/-- What a letter, or an angle, stands for behind a backslash. -/
def letterEscape? : Char → Option Atom
  | 'a' => some (.literal '\x07' false)
  | 'f' => some (.literal '\x0c' false)
  | 'n' => some (.literal '\n' false)
  | 'r' => some (.literal '\r' false)
  | 't' => some (.literal '\t' false)
  | 'v' => some (.literal '\x0b' false)
  | 'A' => some .place
  | 'z' => some .place
  | 'b' => some .wordEdge
  | 'B' => some .wordEdge
  | '<' => some .wordEdge
  | '>' => some .wordEdge
  | 'd' => some (.kind false)
  | 's' => some (.kind false)
  | 'w' => some (.kind false)
  | 'D' => some (.kind true)
  | 'S' => some (.kind true)
  | 'W' => some (.kind true)
  | _ => none

/-- Whether a character stands for itself behind a backslash. -/
def isEscapable (c : Char) : Bool :=
  c.toNat < 128 && !c.isAlphanum && c ≠ '<' && c ≠ '>'

/-- Reads an escape, behind its backslash.  An edge of a word cannot have a brace behind
it. -/
def readEscape (free : Bool) : List Char → Option (Atom × List Char)
  | [] => none
  | c :: rest =>
    match codeDigits? c with
    | some digits => readCode free (c = 'x') digits 0 rest
    | none =>
      if isEscapable c then some (.literal c false, rest)
      else if c = 'b' ∧ rest.head? = some '\x7b' then none
      else (letterEscape? c).map fun a => (a, rest)

/-! ## Sets -/

/-- What is read of a set in brackets. -/
structure SetDraft where
  /-- What is known of the set. -/
  content : CharSet
  /-- How deep the part in front of the last operator is nested, if there is one. -/
  left : Option Nat := none
  /-- The number of things behind it. -/
  count : Nat := 0

namespace SetDraft

/-- A set without content so far. -/
def start (negated : Bool) : SetDraft :=
  ⟨⟨negated, false, [], 0⟩, none, 0⟩

/-- Adds something that is not nested any deeper. -/
def addAtoms (d : SetDraft) (atoms : List Atom) : SetDraft :=
  { d with
    content := { d.content with atoms := atoms ++ d.content.atoms }
    count := d.count + 1 }

/-- Adds a named set of ASCII characters. -/
def addNamed (d : SetDraft) (negated : Bool) : SetDraft :=
  { d with
    content := { d.content with negation := d.content.negation || negated, named := true }
    count := d.count + 1 }

/-- Adds a set. -/
def addSet (d : SetDraft) (s : CharSet) : SetDraft :=
  { d with
    content := {
      negation := d.content.negation || s.negation
      named := d.content.named || s.named
      atoms := s.atoms ++ d.content.atoms
      depth := max d.content.depth (1 + s.depth) }
    count := d.count + 1 }

/-- How deep everything so far is nested: two things or more behind the last operator make
up a part of their own, and so does the operator. -/
def depth (d : SetDraft) : Nat :=
  let right := if d.count ≤ 1 then d.content.depth else 1 + d.content.depth
  match d.left with
  | none => right
  | some left => 1 + max left right

/-- Adds an operator. -/
def addOperator (d : SetDraft) : SetDraft :=
  { content := { d.content with depth := 0 }, left := some d.depth, count := 0 }

/-- The set. -/
def finish (d : SetDraft) : CharSet :=
  { d.content with depth := d.depth }

end SetDraft

/-- The names of sets of ASCII characters. -/
def setNames : List String :=
  ["alnum", "alpha", "ascii", "blank", "cntrl", "digit", "graph", "lower", "print", "punct",
    "space", "upper", "word", "xdigit"]

/-- Reads a named set, behind its first bracket: whether its opposite is meant. -/
def namedSet? : List Char → Option (Bool × List Char)
  | ':' :: rest =>
    let negated : Bool := rest.head? = some '^'
    let rest := if negated then rest.drop 1 else rest
    let name := String.ofList (rest.takeWhile (· ≠ ':'))
    match rest.dropWhile (· ≠ ':') with
    | ':' :: ']' :: rest => if setNames.contains name then some (negated, rest) else none
    | _ => none
  | _ => none

/-- The number of hyphens at the start of a set, and the text behind them and behind what
has no meaning. -/
def takeHyphens (free inComment : Bool) : List Char → Nat × List Char
  | [] => (0, [])
  | c :: rest =>
    if inComment then takeHyphens free (c ≠ '\n') rest
    else if free && Text.isBlank c then takeHyphens free false rest
    else if free && c = '#' then takeHyphens free true rest
    else if c = '-' then
      let (count, rest) := takeHyphens free false rest
      (count + 1, rest)
    else (0, c :: rest)

/-- Opens a set, behind its first bracket.  Hyphens at the start stand for themselves, and
so does a closing bracket at the very start. -/
def openSet (free : Bool) (text : List Char) : SetDraft × List Char :=
  let text := skip free text
  let negated : Bool := text.head? = some '^'
  let (hyphens, rest) := takeHyphens free false (if negated then text.drop 1 else text)
  let d := (List.replicate hyphens ()).foldl (fun d _ => d.addAtoms [.literal '-' false])
    (SetDraft.start negated)
  match rest with
  | ']' :: rest =>
    if hyphens = 0 then (d.addAtoms [.literal ']' false], rest) else (d, ']' :: rest)
  | rest => (d, rest)

/-- Reads one character of a set. -/
def readSetAtom (free : Bool) : List Char → Option (Atom × List Char)
  | [] => none
  | '\\' :: rest => readEscape free rest
  | c :: rest => some (.literal c false, rest)

/-- Whether something can stand in a set on its own. -/
def Atom.isSettable : Atom → Bool
  | literal .. => true
  | kind _ => true
  | _ => false

/-- Reads a character of a set or a range of characters.  A hyphen makes a range if neither
another one nor the end of the set follows. -/
def readRange (free : Bool) (text : List Char) : Option (List Atom × List Char) := do
  let (first, rest) ← readSetAtom free text
  match skip free rest with
  | [] => none
  | '-' :: rest =>
    let next := following free rest
    if next = some ']' ∨ next = some '-' then
      if first.isSettable then some ([first], '-' :: rest) else none
    else
      match first, ← readSetAtom free (skip free rest) with
      | .literal a x, (.literal b y, rest) =>
        if a ≤ b then some ([.literal a x, .literal b y], rest) else none
      | _, _ => none
  | rest => if first.isSettable then some ([first], rest) else none

/-- Reads a set up to its end. -/
def readSet (free : Bool) : Nat → SetDraft → List Char → Option (CharSet × List Char)
  | 0, _, _ => none
  | fuel + 1, d, text =>
    match skip free text with
    | [] => none
    | ']' :: rest => some (d.finish, rest)
    | '[' :: rest =>
      match namedSet? rest with
      | some (negated, rest) => readSet free fuel (d.addNamed negated) rest
      | none => do
        let (inner, rest) := openSet free rest
        let (inner, rest) ← readSet free fuel inner rest
        readSet free fuel (d.addSet inner) rest
    | '&' :: '&' :: rest => readSet free fuel d.addOperator rest
    | '-' :: '-' :: rest => readSet free fuel d.addOperator rest
    | '~' :: '~' :: rest => readSet free fuel d.addOperator rest
    | text => do
      let (atoms, rest) ← readRange free text
      readSet free fuel (d.addAtoms atoms) rest

/-! ## Groups -/

/-- What stands behind an opening parenthesis. -/
inductive Opening where
  /-- Letters up to a closing parenthesis. -/
  | switches (s : Switches)
  /-- The start of a group. -/
  | group (label : Label)

/-- Whether a text is the name of a group. -/
def isGroupName : List Char → Bool
  | [] => false
  | c :: rest =>
    (c = '_' || Text.isAlphabetic c) &&
      rest.all fun c => Text.isAlphanumeric c || ['_', '.', '[', ']'].contains c

/-- Reads the name of a group. -/
def readGroupName (text : List Char) : Option (Opening × List Char) :=
  let name := text.takeWhile (· ≠ '>')
  match text.dropWhile (· ≠ '>') with
  | [] => none
  | _ :: rest => if isGroupName name then some (.group (.named name), rest) else none

/-- The letters that switch something. -/
def switchLetters : List Char :=
  ['i', 'm', 's', 'U', 'u', 'R', 'x']

/-- Reads letters, of which those behind a hyphen switch something off. -/
def readSwitches (text : List Char) : Option (Opening × List Char) :=
  let isEnd (c : Char) : Bool := c = ':' || c = ')'
  let letters := text.takeWhile (!isEnd ·)
  let s : Switches := ⟨letters.takeWhile (· ≠ '-'), (letters.dropWhile (· ≠ '-')).drop 1⟩
  if letters.Nodup ∧ (letters.all ('-' :: switchLetters).contains) ∧
      letters.getLast? ≠ some '-' then
    match text.dropWhile (!isEnd ·) with
    | ':' :: rest => some (.group (.switched s), rest)
    | ')' :: rest => if letters.isEmpty then none else some (.switches s, rest)
    | _ => none
  else
    none

/-- Reads what stands behind an opening parenthesis. -/
def readOpening : List Char → Option (Opening × List Char)
  | '?' :: 'P' :: '<' :: rest => readGroupName rest
  | '?' :: '<' :: rest => readGroupName rest
  | '?' :: rest => readSwitches rest
  | rest => some (.group .plain, rest)

/-- The letter that makes blanks meaningless. -/
def freeLetter : Char :=
  'x'

/-- Whether blanks are meaningless in a group. -/
def Label.free (before : Bool) : Label → Bool
  | switched s => s.apply freeLetter before
  | _ => before

/-! ## Patterns -/

/-- Whether a pattern can be repeated. -/
def isRepeatable : Pattern → Bool
  | .switches _ => false
  | _ => true

/-- Reads one character of a pattern that has no other meaning. -/
def readAtom (free : Bool) : List Char → Option (Atom × List Char)
  | [] => none
  | '\\' :: rest => readEscape free rest
  | '.' :: rest => some (.any, rest)
  | '^' :: rest => some (.place, rest)
  | '$' :: rest => some (.place, rest)
  | c :: rest => some (.literal c false, rest)

/-- Puts the parts of a finished choice, which are in reverse, in front of the other ones. -/
def close (parts choices : List Pattern) : List Pattern :=
  ofSequence parts.reverse :: choices

/-- Reads patterns up to a closing parenthesis or the end of the text: `choices` are the
finished ones of which one is chosen, and `parts` are those of the current one, both in
reverse. -/
def readChoice : Nat → Bool → List Pattern → List Pattern → List Char →
    Option (Pattern × List Char)
  | 0, _, _, _, _ => none
  | fuel + 1, free, choices, parts, text =>
    match skip free text with
    | [] => some (ofChoice (close parts choices).reverse, [])
    | ')' :: rest => some (ofChoice (close parts choices).reverse, ')' :: rest)
    | '|' :: rest => readChoice fuel free (close parts choices) [] rest
    | '(' :: rest => do
      match ← readOpening (skip free rest) with
      | (.switches s, rest) =>
        readChoice fuel (s.apply freeLetter free) choices (.switches s :: parts) rest
      | (.group label, rest) => do
        match ← readChoice fuel (label.free free) [] [] rest with
        | (inner, ')' :: rest) => readChoice fuel free choices (.group label inner :: parts) rest
        | _ => none
    | '[' :: rest => do
      let (d, rest) := openSet free rest
      let (s, rest) ← readSet free fuel d rest
      readChoice fuel free choices (.set s :: parts) rest
    | c :: rest =>
      if c = '?' ∨ c = '*' ∨ c = '+' then
        match parts with
        | [] => none
        | p :: parts =>
          if isRepeatable p then
            readChoice fuel free choices (.repeated p :: parts)
              (if rest.head? = some '?' then rest.drop 1 else rest)
          else
            none
      else if c = '\x7b' then
        none
      else do
        let (a, rest) ← readAtom free (c :: rest)
        readChoice fuel free choices (.atom a :: parts) rest

/-- How deep the parts of a pattern may be nested. -/
def maxDepth : Nat :=
  250

/-- Reads a pattern.  No two groups may have the same name. -/
def read? (text : List Char) : Option Pattern :=
  match readChoice (text.length + 1) false [] [] text with
  | some (p, []) => if p.depth ≤ maxDepth ∧ p.names.Nodup then some p else none
  | _ => none

end FencedCode.Pattern
