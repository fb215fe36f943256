import FencedCode.Json.Text
import FencedCode.Toml.Basic

/-!
# Strings of TOML

There are four kinds of strings: with or without escapes, and on one line or on several.
Those with escapes stand between double quotes and are read by a machine whose states say
what the characters so far have begun; those without stand between single quotes.  Three
quotes open and close a string on several lines.
-/

namespace FencedCode.Toml

/-- The control characters that may not stand in strings and comments. -/
def isControl (c : Char) : Bool :=
  c.toNat < 32 && c ≠ '\t' || c.toNat = 127

/-- Where the reader of a string stands. -/
inductive StringState where
  /-- Between characters. -/
  | plain
  /-- After a backslash. -/
  | escape
  /-- In an escape of which so many digits are left. -/
  | digits (left : Nat) (value : Nat)
  /-- In the blanks after a backslash at the end of a line; `ended` says whether the line
  end is behind. -/
  | gap (ended : Bool)

/-- What a character makes of a string that is read. -/
inductive StringStep where
  /-- Reading goes on, with the characters so far in reverse. -/
  | next (done : List Char) (state : StringState)
  /-- The string ends, and this follows it. -/
  | finish (done : List Char) (rest : List Char)

/-- The character that a backslash and a letter stand for. -/
def simpleEscape? : Char → Option Char
  | '"' => some '"'
  | '\\' => some '\\'
  | 'b' => some '\x08'
  | 'e' => some '\x1b'
  | 'f' => some '\x0c'
  | 'n' => some '\n'
  | 'r' => some '\r'
  | 't' => some '\t'
  | _ => none

/-- The number of digits of an escape by code point. -/
def escapeDigits? : Char → Option Nat
  | 'x' => some 2
  | 'u' => some 4
  | 'U' => some 8
  | _ => none

/-- The number of quotes at the start of a text, counted up to five. -/
def quoteCount (quote : Char) (text : List Char) : Nat :=
  ((text.take 5).takeWhile (· = quote)).length

/-- A line end that is written as a carriage return and a line feed. -/
def isReturn (c : Char) (rest : List Char) : Bool :=
  c = '\r' && rest.head? = some '\n'

/-- What a character between others makes of a string; three to five quotes close a string
on several lines, and all but the last three belong to it. -/
def plainStep (quote : Char) (multi : Bool) (done : List Char) (c : Char) (rest : List Char) :
    Option StringStep :=
  if c = quote then
    if multi then
      let count := quoteCount quote (c :: rest)
      if count < 3 then some (.next (c :: done) .plain)
      else some (.finish (List.replicate (count - 3) c ++ done) ((c :: rest).drop count))
    else
      some (.finish done rest)
  else if multi && c = '\n' then some (.next (c :: done) .plain)
  else if multi && isReturn c rest then some (.next done .plain)
  else if isControl c then none
  else if c = '\\' && quote = '"' then some (.next done .escape)
  else some (.next (c :: done) .plain)

/-- What a character makes of a string in a state. -/
def stringStep (quote : Char) (multi : Bool) (done : List Char) (state : StringState)
    (c : Char) (rest : List Char) : Option StringStep :=
  match state with
  | .plain => plainStep quote multi done c rest
  | .escape =>
    match simpleEscape? c, escapeDigits? c with
    | some d, _ => some (.next (d :: done) .plain)
    | none, some left => some (.next done (.digits left 0))
    | none, none =>
      if multi && (c = ' ' || c = '\t' || isReturn c rest) then some (.next done (.gap false))
      else if multi && c = '\n' then some (.next done (.gap true))
      else none
  | .digits left value =>
    match Json.hexValue? c with
    | none => none
    | some d =>
      let value := 16 * value + d
      if left > 1 then some (.next done (.digits (left - 1) value))
      else if value.isValidChar then some (.next (Char.ofNat value :: done) .plain)
      else none
  | .gap ended =>
    if c = ' ' || c = '\t' || isReturn c rest then some (.next done (.gap ended))
    else if c = '\n' then some (.next done (.gap true))
    else if ended then plainStep quote multi done c rest
    else none

/-- Reads a string up to its end. -/
def readStringFrom (quote : Char) (multi : Bool) (done : List Char) (state : StringState) :
    List Char → Option (String × List Char)
  | [] => none
  | c :: rest =>
    match stringStep quote multi done state c rest with
    | none => none
    | some (.finish done rest) => some (String.ofList done.reverse, rest)
    | some (.next done state) => readStringFrom quote multi done state rest

/-- The text of a string on several lines without a line end at its very start. -/
def dropFirstLineEnd : List Char → List Char
  | '\n' :: rest => rest
  | '\r' :: '\n' :: rest => rest
  | rest => rest

/-- Reads a string on one line, behind its first quote. -/
def readLineString (quote : Char) (text : List Char) : Option (String × List Char) :=
  readStringFrom quote false [] .plain text

/-- Reads a string of any kind, behind its first quote. -/
def readString (quote : Char) (text : List Char) : Option (String × List Char) :=
  match text with
  | a :: b :: rest =>
    if a = quote ∧ b = quote then readStringFrom quote true [] .plain (dropFirstLineEnd rest)
    else readLineString quote text
  | _ => readLineString quote text

end FencedCode.Toml
