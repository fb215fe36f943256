import FencedCode.Json.Basic

/-!
# Writing JSON

A value is written in one of two layouts: `compact`, without any blanks, and `pretty`, with
every member and item on a line of its own, indented by two spaces a level.  Empty arrays
and objects stay closed in both.  A number that is not finite is written as `null`.
-/

namespace FencedCode.Json

/-- How a value is laid out. -/
inductive Layout where
  /-- Everything on one line, without blanks. -/
  | compact
  /-- Every item and member on a line of its own. -/
  | pretty
  deriving DecidableEq

/-- The line break in front of an item at a nesting level. -/
def Layout.break (layout : Layout) (level : Nat) : List Char :=
  match layout with
  | compact => []
  | pretty => '\n' :: List.replicate (2 * level) ' '

/-- What stands between the name of a member and its value. -/
def Layout.colon : Layout → List Char
  | compact => [':']
  | pretty => [':', ' ']

/-- The comma in front of every item but the first. -/
def comma (first : Bool) : List Char :=
  if first then [] else [',']

/-- One digit of base sixteen, in lower case. -/
def hexDigit (n : Nat) : Char :=
  Nat.digitChar n

/-- How a character is written in a string. -/
def escapedChar (c : Char) : List Char :=
  match c with
  | '"' => ['\\', '"']
  | '\\' => ['\\', '\\']
  | '\x08' => ['\\', 'b']
  | '\t' => ['\\', 't']
  | '\n' => ['\\', 'n']
  | '\x0c' => ['\\', 'f']
  | '\r' => ['\\', 'r']
  | c =>
    if c.toNat < 32 then
      ['\\', 'u', '0', '0', hexDigit (c.toNat / 16), hexDigit (c.toNat % 16)]
    else
      [c]

/-- The text of a string, between double quotes. -/
def stringChars (s : String) : List Char :=
  '"' :: s.toList.flatMap escapedChar ++ ['"']

/-- The text of the value `null`. -/
def nullChars : List Char :=
  ['n', 'u', 'l', 'l']

/-- The text of a truth value. -/
def boolChars (b : Bool) : List Char :=
  if b then ['t', 'r', 'u', 'e'] else ['f', 'a', 'l', 's', 'e']

mutual

/-- Writes a value at a nesting level in front of a text. -/
def write (layout : Layout) (level : Nat) (behind : List Char) : Json → List Char
  | null => nullChars ++ behind
  | bool b => boolChars b ++ behind
  | number n => n.chars?.getD nullChars ++ behind
  | string s => stringChars s ++ behind
  | array [] => '[' :: ']' :: behind
  | array (j :: rest) =>
    '[' :: writeItems layout level true (layout.break level ++ ']' :: behind) (j :: rest)
  | object [] => '{' :: '}' :: behind
  | object (m :: rest) =>
    '{' :: writeMembers layout level true (layout.break level ++ '}' :: behind) (m :: rest)

/-- Writes the items of an array at a nesting level in front of a text. -/
def writeItems (layout : Layout) (level : Nat) (first : Bool) (behind : List Char) :
    List Json → List Char
  | [] => behind
  | j :: rest =>
    comma first ++ (layout.break (level + 1) ++
      write layout (level + 1) (writeItems layout level false behind rest) j)

/-- Writes the members of an object at a nesting level in front of a text. -/
def writeMembers (layout : Layout) (level : Nat) (first : Bool) (behind : List Char) :
    List (String × Json) → List Char
  | [] => behind
  | (name, j) :: rest =>
    comma first ++ (layout.break (level + 1) ++ (stringChars name ++ (layout.colon ++
      write layout (level + 1) (writeMembers layout level false behind rest) j)))

end

mutual

/-- What is written does not depend on what follows it. -/
theorem write_eq_append (layout : Layout) (level : Nat) (behind : List Char) (j : Json) :
    write layout level behind j = write layout level [] j ++ behind := by
  match j with
  | null => simp [write]
  | bool b => simp [write]
  | number n => simp [write]
  | string s => simp [write]
  | array [] => simp [write]
  | array (j :: rest) =>
    rw [write, write, writeItems_eq_append layout level true _ (j :: rest),
      writeItems_eq_append layout level true (layout.break level ++ [']']) (j :: rest)]
    simp
  | object [] => simp [write]
  | object (m :: rest) =>
    rw [write, write, writeMembers_eq_append layout level true _ (m :: rest),
      writeMembers_eq_append layout level true (layout.break level ++ ['}']) (m :: rest)]
    simp

/-- What is written for items does not depend on what follows them. -/
theorem writeItems_eq_append (layout : Layout) (level : Nat) (first : Bool)
    (behind : List Char) (items : List Json) :
    writeItems layout level first behind items =
      writeItems layout level first [] items ++ behind := by
  match items with
  | [] => simp [writeItems]
  | j :: rest =>
    rw [writeItems, writeItems, write_eq_append layout (level + 1) _ j,
      write_eq_append layout (level + 1) (writeItems layout level false [] rest) j,
      writeItems_eq_append layout level false behind rest]
    simp

/-- What is written for members does not depend on what follows them. -/
theorem writeMembers_eq_append (layout : Layout) (level : Nat) (first : Bool)
    (behind : List Char) (members : List (String × Json)) :
    writeMembers layout level first behind members =
      writeMembers layout level first [] members ++ behind := by
  match members with
  | [] => simp [writeMembers]
  | (name, j) :: rest =>
    rw [writeMembers, writeMembers, write_eq_append layout (level + 1) _ j,
      write_eq_append layout (level + 1) (writeMembers layout level false [] rest) j,
      writeMembers_eq_append layout level false behind rest]
    simp

end

/-- The text of a value in a layout. -/
def render (layout : Layout) (j : Json) : String :=
  String.ofList (write layout 0 [] j)

end FencedCode.Json
