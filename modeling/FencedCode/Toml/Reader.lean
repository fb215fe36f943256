import FencedCode.Toml.Scalar
import FencedCode.Toml.Text

/-!
# Reading TOML

A document is a row of lines, each with a header, an assignment or neither.  Arrays and
tables between braces can go over several lines, have comments in them and end with a comma.
At most 80 of them may be open at once, and the length of the text bounds all loops.  What
is wrong with a faulty document is not told.
-/

namespace FencedCode.Toml

/-- The greatest number of arrays and tables between braces that may be open at once, and of
names in a key. -/
def maxDepth : Nat :=
  80

/-- The text from its first character on that is no blank of the line. -/
def skipBlanks (text : List Char) : List Char :=
  text.dropWhile fun c => c = ' ' || c = '\t'

/-- Takes a line end off a text. -/
def takeLineEnd : List Char → Option (List Char)
  | '\n' :: rest => some rest
  | '\r' :: '\n' :: rest => some rest
  | _ => none

/-- The text behind a comment, if it is allowed. -/
def skipComment : List Char → Option (List Char)
  | [] => some []
  | c :: rest =>
    if c = '\n' then some (c :: rest)
    else if isReturn c rest then some (c :: rest)
    else if isControl c then none
    else skipComment rest

/-- The text behind blanks and perhaps a comment. -/
def skipToLineEnd (text : List Char) : Option (List Char) :=
  match skipBlanks text with
  | '#' :: rest => skipComment rest
  | rest => some rest

/-- The text from its first token on, over any number of lines. -/
def skipLines : Nat → List Char → Option (List Char)
  | 0, _ => none
  | fuel + 1, text => do
    let rest ← skipToLineEnd text
    match takeLineEnd rest with
    | some rest => skipLines fuel rest
    | none => return rest

/-! ## Keys -/

/-- The characters of keys without quotes. -/
def isBareKeyChar (c : Char) : Bool :=
  c.isAlphanum || c = '_' || c = '-'

/-- Reads one name of a key. -/
def readName (text : List Char) : Option (String × List Char) :=
  match text with
  | [] => none
  | c :: rest =>
    if c = '"' ∨ c = '\x27' then readLineString c rest
    else
      match text.takeWhile isBareKeyChar with
      | [] => none
      | name => some (String.ofList name, text.dropWhile isBareKeyChar)

/-- Reads one name or several with dots between them, and the blanks behind them. -/
def readNames : Nat → List Char → Option (List String × List Char)
  | 0, _ => none
  | fuel + 1, text => do
    let (name, rest) ← readName (skipBlanks text)
    match skipBlanks rest with
    | '.' :: rest => do
      let (names, rest) ← readNames fuel rest
      return (name :: names, rest)
    | rest => return ([name], rest)

/-- Reads a key, which is a row of names that is not too long. -/
def readKey (fuel : Nat) (text : List Char) : Option (List String × List Char) := do
  let (names, rest) ← readNames fuel text
  if names.length ≤ maxDepth then some (names, rest) else none

/-! ## Values -/

/-- The characters of values without quotes: those that neither are blanks nor have a
meaning between values. -/
def isScalarChar (c : Char) : Bool :=
  !([' ', '\t', '\r', '\n', '#', '=', ',', '[', ']', '\x7b', '\x7d'].contains c)

/-- Splits a value without quotes off a text; a blank in it may separate a date and a
time. -/
def splitScalar (text : List Char) : List Char × List Char :=
  let first := text.takeWhile isScalarChar
  match text.dropWhile isScalarChar with
  | ' ' :: c :: rest =>
    if c.isDigit && takeDate first = some [] then
      (first ++ ' ' :: (c :: rest).takeWhile isScalarChar,
        (c :: rest).dropWhile isScalarChar)
    else
      (first, ' ' :: c :: rest)
  | rest => (first, rest)

/-- Reads a value without quotes. -/
def readScalar (text : List Char) : Option (Value × List Char) := do
  let (scalar, rest) := splitScalar text
  return (← scalarOf? scalar, rest)

/-- Reads what stands between an opening and a closing mark: any number of things with
commas between them, and perhaps a comma at the end. -/
def readSeries {α : Type} (close : Char) (read : List Char → Option (α × List Char)) :
    Nat → List α → List Char → Option (List α × List Char)
  | 0, _, _ => none
  | fuel + 1, done, text => do
    match ← skipLines (fuel + 1) text with
    | [] => none
    | c :: rest =>
      if c = close then
        return (done.reverse, rest)
      else do
        let (a, rest) ← read (c :: rest)
        match ← skipLines (fuel + 1) rest with
        | [] => none
        | d :: rest =>
          if d = ',' then readSeries close read fuel (a :: done) rest
          else if d = close then return ((a :: done).reverse, rest)
          else none

/-- Reads an assignment, given what may stand around its equals sign and how its value is
read. -/
def readAssignment (fuel : Nat) (skip : List Char → Option (List Char))
    (read : List Char → Option (Value × List Char)) (text : List Char) :
    Option (Assignment × List Char) := do
  let (key, rest) ← readKey fuel text
  match ← skip rest with
  | '=' :: rest => do
    let (value, rest) ← read (← skip rest)
    return (⟨key, value⟩, rest)
  | _ => none

/-- Reads a value in which so many more arrays and tables may be open at once. -/
def readValue (fuel : Nat) : Nat → List Char → Option (Value × List Char)
  | depth, text =>
    match text with
    | [] => none
    | '"' :: rest => do
      let (s, rest) ← readString '"' rest
      return (.string s, rest)
    | '\x27' :: rest => do
      let (s, rest) ← readString '\x27' rest
      return (.string s, rest)
    | '[' :: rest =>
      match depth with
      | 0 => none
      | depth + 1 => do
        let (items, rest) ← readSeries ']' (readValue fuel depth) fuel [] rest
        return (.array items, rest)
    | '\x7b' :: rest =>
      match depth with
      | 0 => none
      | depth + 1 => do
        let (assignments, rest) ←
          readSeries '\x7d' (readAssignment fuel (skipLines fuel) (readValue fuel depth)) fuel []
            rest
        let t ← Table.assignAll ⟨.inline, []⟩ assignments
        return (t.value, rest)
    | text => readScalar text

/-! ## Documents -/

/-- Reads the header of a table, behind its first bracket. -/
def readHeader (fuel : Nat) (text : List Char) : Option (Heading × List Char) :=
  match text with
  | '[' :: rest => do
    match ← readKey fuel rest with
    | (key, ']' :: ']' :: rest) => return (.nextTable key, rest)
    | _ => none
  | rest => do
    match ← readKey fuel rest with
    | (key, ']' :: rest) => return (.table key, rest)
    | _ => none

/-- Takes the end of a line with a header or an assignment off a text. -/
def readLineEnd (text : List Char) : Option (List Char) := do
  match ← skipToLineEnd text with
  | [] => return []
  | rest => takeLineEnd rest

/-- Reads the lines of a document into sections, `heading` and the assignments `below` it
being the section that is not finished. -/
def readSections (fuel : Nat) (heading : Heading) (below : List Assignment) :
    Nat → List Char → Option (List Section)
  | 0, _ => none
  | lines + 1, text => do
    match ← skipLines fuel text with
    | [] => return [⟨heading, below.reverse⟩]
    | '[' :: rest => do
      let (next, rest) ← readHeader fuel rest
      let rest ← readLineEnd rest
      let sections ← readSections fuel next [] lines rest
      return ⟨heading, below.reverse⟩ :: sections
    | rest => do
      let (a, rest) ← readAssignment fuel (some ∘ skipBlanks) (readValue fuel maxDepth) rest
      let rest ← readLineEnd rest
      readSections fuel heading (a :: below) lines rest

/-- The text without a byte order mark at its start. -/
def dropMark : List Char → List Char
  | '\ufeff' :: rest => rest
  | rest => rest

/-- Reads a whole document. -/
def read? (text : String) : Option Table := do
  let fuel := text.length + 2
  let sections ← readSections fuel .top [] fuel (dropMark text.toList)
  Table.ofSections ⟨.header, []⟩ sections

end FencedCode.Toml
