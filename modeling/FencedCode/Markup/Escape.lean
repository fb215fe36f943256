/-!
# Character references

Three characters of a text would be taken for markup, and in the value of an attribute a
fourth one, the double quote, would end it.  They are written as references.
-/

namespace FencedCode.Markup

/-- Where a text stands. -/
inductive Place where
  /-- Between tags. -/
  | text
  /-- In the value of an attribute. -/
  | attribute
  deriving DecidableEq

/-- How a character is written at a place. -/
def escapedChar (place : Place) (c : Char) : List Char :=
  match c with
  | '&' => ['&', 'a', 'm', 'p', ';']
  | '<' => ['&', 'l', 't', ';']
  | '>' => ['&', 'g', 't', ';']
  | '"' =>
    match place with
    | .text => ['"']
    | .attribute => ['&', 'q', 'u', 'o', 't', ';']
  | c => [c]

/-- How a text is written at a place. -/
def escape (place : Place) (text : List Char) : List Char :=
  text.flatMap (escapedChar place)

/-- The text that a written text stands for: the four references are replaced from left to
right. -/
def unescape : List Char → List Char
  | '&' :: 'a' :: 'm' :: 'p' :: ';' :: rest => '&' :: unescape rest
  | '&' :: 'l' :: 't' :: ';' :: rest => '<' :: unescape rest
  | '&' :: 'g' :: 't' :: ';' :: rest => '>' :: unescape rest
  | '&' :: 'q' :: 'u' :: 'o' :: 't' :: ';' :: rest => '"' :: unescape rest
  | c :: rest => c :: unescape rest
  | [] => []

end FencedCode.Markup
