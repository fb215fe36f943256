import FencedCode.Json.Error

/-!
# Reading strings

A string is read character by character by a small machine: `StringState` says what the
characters read so far have begun.  Characters beyond the sixteen-bit range are escaped in
two halves, and half of one is malformed.
-/

namespace FencedCode.Json

/-- Where the reader of a string stands. -/
inductive StringState where
  /-- Between characters. -/
  | plain
  /-- After a backslash. -/
  | escape
  /-- After a backslash, a `u` and some digits that are worth `value`; the first half of the
  character, if this is the second, is `high`. -/
  | digits (high : Option Nat) (left : Nat) (value : Nat)
  /-- After the first half of a character. -/
  | afterHigh (high : Nat)
  /-- After the first half of a character and a backslash. -/
  | afterHighEscape (high : Nat)

/-- The value of a digit of base sixteen. -/
def hexValue? (c : Char) : Option Nat :=
  if '0' ≤ c ∧ c ≤ '9' then some (c.toNat - '0'.toNat)
  else if 'a' ≤ c ∧ c ≤ 'f' then some (c.toNat - 'a'.toNat + 10)
  else if 'A' ≤ c ∧ c ≤ 'F' then some (c.toNat - 'A'.toNat + 10)
  else none

/-- The character that a backslash and a letter stand for. -/
def simpleEscape? : Char → Option Char
  | '"' => some '"'
  | '\\' => some '\\'
  | '/' => some '/'
  | 'b' => some '\x08'
  | 'f' => some '\x0c'
  | 'n' => some '\n'
  | 'r' => some '\r'
  | 't' => some '\t'
  | _ => none

/-- The number of bytes that a text takes in UTF-8. -/
def byteLength (text : List Char) : Nat :=
  (String.ofList text).utf8ByteSize

/-- What four digits of an escape make: a character, or the first half of one. -/
def escapedUnit (high : Option Nat) (value : Nat) : Except Error (Char ⊕ Nat) :=
  match high with
  | none =>
    if 0xdc00 ≤ value ∧ value ≤ 0xdfff then .error .malformed
    else if 0xd800 ≤ value ∧ value ≤ 0xdbff then .ok (.inr value)
    else .ok (.inl (Char.ofNat value))
  | some high =>
    if 0xdc00 ≤ value ∧ value ≤ 0xdfff then
      .ok (.inl (Char.ofNat (0x10000 + (high - 0xd800) * 0x400 + (value - 0xdc00))))
    else .error .malformed

/-- The state after the `u` of an escape; four bytes have to follow. -/
def enterDigits (high : Option Nat) (rest : List Char) : Except Error StringState :=
  if byteLength (rest.take 4) < 4 then .error .truncated else .ok (.digits high 4 0)

/-- Reads a string up to its closing quote, `done` being the characters so far in reverse,
and gives it with what follows the quote. -/
def readString (done : List Char) (state : StringState) :
    List Char → Except Error (String × List Char)
  | [] => .error .truncated
  | c :: rest =>
    match state with
    | .plain =>
      if c = '"' then .ok (String.ofList done.reverse, rest)
      else if c = '\\' then readString done .escape rest
      else if c.toNat < 32 then .error .malformed
      else readString (c :: done) .plain rest
    | .escape =>
      match simpleEscape? c with
      | some d => readString (d :: done) .plain rest
      | none =>
        if c = 'u' then
          match enterDigits none rest with
          | .error e => .error e
          | .ok state => readString done state rest
        else .error .malformed
    | .digits high left value =>
      match hexValue? c with
      | none => .error .malformed
      | some d =>
        if left > 1 then readString done (.digits high (left - 1) (16 * value + d)) rest
        else
          match escapedUnit high (16 * value + d) with
          | .error e => .error e
          | .ok (.inl d) => readString (d :: done) .plain rest
          | .ok (.inr high) => readString done (.afterHigh high) rest
    | .afterHigh high =>
      if c = '\\' then readString done (.afterHighEscape high) rest else .error .malformed
    | .afterHighEscape high =>
      if c = 'u' then
        match enterDigits (some high) rest with
        | .error e => .error e
        | .ok state => readString done state rest
      else .error .malformed

end FencedCode.Json
