import FencedCode.Markup.Escape
import FencedCode.Double.Text
import FencedCode.Tree.Properties

/-!
# Attributes

A property becomes an attribute under another name: four properties have names of their
own, a name such as `dataFooBar` is spelled `data-foo-bar`, and every other name is written
in lower case.  Only ASCII letters have case here.
-/

namespace FencedCode

namespace Markup

/-- One character of a camel-case name, a capital becoming a hyphen and a small letter. -/
def hyphenated (c : Char) : List Char :=
  if c.isUpper then ['-', c.toLower] else [c]

/-- The general rule for names: a name that starts with `data` and a capital is hyphenated
behind `data`, and every other name is written in lower case. -/
def loweredName : List Char → List Char
  | 'd' :: 'a' :: 't' :: 'a' :: c :: rest =>
    if c.isUpper then 'd' :: 'a' :: 't' :: 'a' :: (c :: rest).flatMap hyphenated
    else ('d' :: 'a' :: 't' :: 'a' :: c :: rest).map Char.toLower
  | name => name.map Char.toLower

/-- The name of the attribute that a property becomes. -/
def attributeName (property : String) : String :=
  match property with
  | "className" => "class"
  | "htmlFor" => "for"
  | "httpEquiv" => "http-equiv"
  | "acceptCharset" => "accept-charset"
  | property => String.ofList (loweredName property.toList)

/-- An attribute of a tag, with its value if it has one. -/
structure Attribute where
  /-- The name as it is written. -/
  name : String
  /-- The value before it is escaped. -/
  value : Option String
  deriving DecidableEq

/-- The text of an attribute, with the blank in front of it. -/
def Attribute.chars (a : Attribute) : List Char :=
  ' ' :: a.name.toList ++
    match a.value with
    | none => []
    | some v => '=' :: '"' :: escape .attribute v.toList ++ ['"']

end Markup

/-- The value of the attribute that a property value becomes: nothing at all if the
attribute is left out, and no text if it stands alone. -/
def PropertyValue.attributeValue? : PropertyValue → Option (Option String)
  | flag false => none
  | flag true => some none
  | number x => some (some x.plain)
  | text s => some (some s)
  | list items => some (some (" ".intercalate items))

/-- The attributes that properties become, in order of the property names. -/
def Properties.attributes (p : Properties) : List Markup.Attribute :=
  p.entries.filterMap fun (name, v) =>
    v.attributeValue?.map fun value => ⟨Markup.attributeName name, value⟩

end FencedCode
