import FencedCode.Tree.NameMap
import FencedCode.Tree.PropertyValue

/-!
# Properties

The properties of an element are a map from names to values.  Its class tokens are the
tokens of one of them, the property `className`.
-/

namespace FencedCode

/-- The properties of an element. -/
abbrev Properties : Type :=
  NameMap PropertyValue

namespace Properties

/-! ## Classes -/

/-- The name of the property that holds the class tokens. -/
def className : String :=
  "className"

/-- The class tokens; there are none if the property is absent or a scalar. -/
def classTokens (p : Properties) : List String :=
  ((p.get? className).bind PropertyValue.tokens?).getD []

/-- Whether a token is among the class tokens. -/
def hasClass (p : Properties) (token : String) : Bool :=
  p.classTokens.contains token

/-- Adds a class token unless it is there, and turns the class tokens into a list. -/
def addClass (p : Properties) (token : String) : Properties :=
  let tokens := p.classTokens
  p.insert className (.list (if tokens.contains token then tokens else tokens ++ [token]))

/-! ## Equality -/

/-- Equality of property maps in which numbers are compared numerically. -/
def equals (p q : Properties) : Bool :=
  p.size == q.size &&
    (p.entries.zip q.entries).all fun (a, b) => a.1 == b.1 && a.2.equals b.2

end Properties

end FencedCode
