import FencedCode.Double.Basic
import FencedCode.Text.Blank

/-!
# Property values

An element carries named properties.  A value is a switch, a number, a text or a list of
texts.  Class lists occur in two forms, as one text with blanks between the tokens and as a
list of tokens, and `PropertyValue.tokens?` is the common view of both.
-/

namespace FencedCode

/-- The value of a property. -/
inductive PropertyValue where
  /-- An attribute that is only present or absent. -/
  | flag (on : Bool)
  /-- A number. -/
  | number (x : Double)
  /-- A text. -/
  | text (s : String)
  /-- A list of texts, such as class tokens. -/
  | list (items : List String)
  deriving DecidableEq

namespace PropertyValue

/-- The text of a text value. -/
def asText? : PropertyValue → Option String
  | text s => some s
  | _ => none

/-- The tokens of a value: the items of a list, or the words of a text. -/
def tokens? : PropertyValue → Option (List String)
  | list items => some items
  | text s => some (Text.words s)
  | _ => none

/-- Whether the value is a flag or a number, which have no tokens. -/
def isScalar : PropertyValue → Bool
  | flag _ => true
  | number _ => true
  | _ => false

/-- Equality of values in which numbers are compared numerically. -/
def equals : PropertyValue → PropertyValue → Bool
  | flag a, flag b => a == b
  | number x, number y => x.equals y
  | text s, text t => s == t
  | list xs, list ys => xs == ys
  | _, _ => false

/-- A value is scalar exactly if it has no tokens. -/
theorem isScalar_iff (v : PropertyValue) : v.isScalar = true ↔ v.tokens? = none := by
  cases v <;> simp [isScalar, tokens?]

end PropertyValue

end FencedCode
