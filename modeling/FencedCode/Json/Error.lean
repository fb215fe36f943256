import FencedCode.Json.Basic
import FencedCode.Text.Quoted

/-!
# What can be wrong with a JSON text

A text is malformed, or it ends too early, or it is a JSON text of the wrong shape.  A wrong
shape has a cause, and `Mismatch.message` words it.
-/

namespace FencedCode.Json

/-- What stands in a text where something else was expected. -/
inductive Found where
  | null
  | bool (b : Bool)
  | number (n : JsonNumber)
  | string (s : String)
  | sequence
  | map

/-- What was expected in place of something else. -/
inductive Expected where
  | string
  | sequence
  | map
  /-- The name of a kind of nodes. -/
  | kindName
  /-- A node of a document. -/
  | node

/-- A way in which a JSON text can have the wrong shape. -/
inductive Mismatch where
  /-- A value of another type was expected. -/
  | wrongType (found : Found) (expected : Expected)
  /-- A member is missing. -/
  | missingField (name : String)
  /-- A member occurs twice. -/
  | duplicateField (name : String)
  /-- A name is none of the names that are allowed. -/
  | unknownName (name : String) (allowed : List String)
  /-- A position is beyond the number of names that are allowed. -/
  | unknownIndex (index : Nat) (allowed : Nat)
  /-- An array has more items than there are fields. -/
  | tooManyItems (found expected : Nat)
  /-- An array has no item for a field that is needed. -/
  | tooFewItems (found : Nat) (expected : String)
  /-- A value has none of the forms of a property value. -/
  | notPropertyValue

/-- A fault of a JSON text. -/
inductive Error where
  /-- The text breaks the grammar, nests too deeply or holds a number that is too large. -/
  | malformed
  /-- The text ends too early. -/
  | truncated
  /-- The text has the wrong shape. -/
  | misshapen (cause : Mismatch)

/-- What a value is, for messages. -/
def found : Json → Found
  | null => .null
  | bool b => .bool b
  | number n => .number n
  | string s => .string s
  | array _ => .sequence
  | object _ => .map

/-- How messages name what they found. -/
def Found.text : Found → String
  | null => "null"
  | bool b => "boolean `" ++ (if b then "true" else "false") ++ "`"
  | number n =>
    match n with
    | .integer _ => "integer `" ++ String.ofList (n.chars?.getD []) ++ "`"
    | .float _ => "floating point `" ++ String.ofList (n.chars?.getD []) ++ "`"
  | string s => "string " ++ Text.quoted s
  | sequence => "sequence"
  | map => "map"

/-- How messages name what was expected. -/
def Expected.text : Expected → String
  | string => "a string"
  | sequence => "a sequence"
  | map => "a map"
  | kindName => "variant identifier"
  | node => "internally tagged enum Node"

/-- A number of elements. -/
def elements (n : Nat) : String :=
  if n = 1 then "1 element" else toString n ++ " elements"

/-- The words for a wrong shape. -/
def Mismatch.message : Mismatch → String
  | wrongType found expected =>
    "invalid type: " ++ found.text ++ ", expected " ++ expected.text
  | missingField name => "missing field `" ++ name ++ "`"
  | duplicateField name => "duplicate field `" ++ name ++ "`"
  | unknownName name allowed =>
    "unknown variant `" ++ name ++ "`, expected one of " ++
      ", ".intercalate (allowed.map fun a => "`" ++ a ++ "`")
  | unknownIndex index allowed =>
    "invalid value: integer `" ++ toString index ++ "`, expected variant index 0 <= i < " ++
      toString allowed
  | tooManyItems found expected =>
    "invalid length " ++ toString found ++ ", expected " ++ elements expected ++ " in sequence"
  | tooFewItems found expected =>
    "invalid length " ++ toString found ++ ", expected " ++ expected
  | notPropertyValue => "data did not match any variant of untagged enum PropertyValue"

end FencedCode.Json
