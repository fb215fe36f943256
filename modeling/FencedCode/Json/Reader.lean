import FencedCode.Json.Number
import FencedCode.Json.Text

/-!
# Reading JSON

A reader takes a value off the front of a text and gives what follows it.  Arrays and
objects are read by one loop each, `foldItems` and `foldMembers`, which leave to a step what
becomes of an item or a member; `readValue` collects them.  At most 127 arrays and objects
may be open at once.  The loops run at most once per character, so the length of the text
bounds them.
-/

namespace FencedCode.Json

/-- The greatest number of arrays and objects that may be open at once. -/
def maxDepth : Nat :=
  127

/-- The four characters that may stand between the tokens of a text. -/
def isBetween (c : Char) : Bool :=
  c = ' ' || c = '\n' || c = '\t' || c = '\r'

/-- The text from its first token on. -/
def skipBlanks (text : List Char) : List Char :=
  text.dropWhile isBetween

/-- Takes the rest of a word off a text. -/
def readWord : List Char → List Char → Except Error (List Char)
  | [], text => .ok text
  | _ :: _, [] => .error .truncated
  | w :: word, c :: text => if c = w then readWord word text else .error .malformed

/-- Reads a value that is neither an array nor an object, at its first character. -/
def readScalar (c : Char) (rest : List Char) : Except Error (Json × List Char) :=
  match c with
  | 'n' => do return (.null, ← readWord ['u', 'l', 'l'] rest)
  | 't' => do return (.bool true, ← readWord ['r', 'u', 'e'] rest)
  | 'f' => do return (.bool false, ← readWord ['a', 'l', 's', 'e'] rest)
  | '"' => do
    let (s, rest) ← readString [] .plain rest
    return (.string s, rest)
  | '-' => do
    let (n, rest) ← readNumber true rest
    return (.number n, rest)
  | c =>
    if c.isDigit then do
      let (n, rest) ← readNumber false (c :: rest)
      return (.number n, rest)
    else
      .error .malformed

/-- Takes the comma in front of an item that is not the first, and the blanks after it. -/
def readSeparator (close : Char) (first : Bool) (text : List Char) :
    Except Error (List Char) :=
  if first then
    .ok text
  else
    match text with
    | ',' :: rest =>
      match skipBlanks rest with
      | [] => .error .truncated
      | c :: rest => if c = close then .error .malformed else .ok (c :: rest)
    | _ => .error .malformed

/-- Takes the colon after the name of a member. -/
def readColon (text : List Char) : Except Error (List Char) :=
  match skipBlanks text with
  | [] => .error .truncated
  | ':' :: rest => .ok rest
  | _ => .error .malformed

/-- Runs a step on every item of an array, up to the closing bracket.  The step takes the
item off the text. -/
def foldItems {σ : Type} (step : σ → List Char → Except Error (σ × List Char)) :
    Nat → Bool → σ → List Char → Except Error (σ × List Char)
  | 0, _, _, _ => .error .malformed
  | fuel + 1, first, state, text =>
    match skipBlanks text with
    | [] => .error .truncated
    | ']' :: rest => .ok (state, rest)
    | text => do
      let text ← readSeparator ']' first text
      let (state, rest) ← step state text
      foldItems step fuel false state rest

/-- Runs a step on every member of an object, up to the closing brace.  The step is given
the name and takes the colon and the value off the text. -/
def foldMembers {σ : Type} (step : σ → String → List Char → Except Error (σ × List Char)) :
    Nat → Bool → σ → List Char → Except Error (σ × List Char)
  | 0, _, _, _ => .error .malformed
  | fuel + 1, first, state, text =>
    match skipBlanks text with
    | [] => .error .truncated
    | '}' :: rest => .ok (state, rest)
    | text => do
      match ← readSeparator '}' first text with
      | '"' :: rest =>
        let (name, rest) ← readString [] .plain rest
        let (state, rest) ← step state name rest
        foldMembers step fuel false state rest
      | _ => .error .malformed

/-- The step that reads an item and puts it in front of those before it. -/
def collectItem (read : List Char → Except Error (Json × List Char)) (items : List Json)
    (text : List Char) : Except Error (List Json × List Char) := do
  let (j, rest) ← read text
  return (j :: items, rest)

/-- The step that reads a member and puts it in front of those before it. -/
def collectMember (read : List Char → Except Error (Json × List Char))
    (members : List (String × Json)) (name : String) (text : List Char) :
    Except Error (List (String × Json) × List Char) := do
  let rest ← readColon text
  let (j, rest) ← read rest
  return ((name, j) :: members, rest)

/-- Reads a value in which so many more arrays and objects may be open at once. -/
def readValue (fuel : Nat) : Nat → List Char → Except Error (Json × List Char)
  | depth, text =>
    match skipBlanks text with
    | [] => .error .truncated
    | '[' :: rest =>
      match depth with
      | 0 => .error .malformed
      | depth + 1 => do
        let (items, rest) ← foldItems (collectItem (readValue fuel depth)) fuel true [] rest
        return (.array items.reverse, rest)
    | '{' :: rest =>
      match depth with
      | 0 => .error .malformed
      | depth + 1 => do
        let (members, rest) ←
          foldMembers (collectMember (readValue fuel depth)) fuel true [] rest
        return (.object members.reverse, rest)
    | c :: rest => readScalar c rest

/-- Makes sure that nothing follows but blanks. -/
def readEnd (text : List Char) : Except Error Unit :=
  match skipBlanks text with
  | [] => .ok ()
  | _ => .error .malformed

end FencedCode.Json
