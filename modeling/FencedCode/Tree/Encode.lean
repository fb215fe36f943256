import FencedCode.Json.Writer
import FencedCode.Tree.Node

/-!
# Documents as JSON

Every node becomes an object whose first member `type` names its kind.  The members stand in
a fixed order, and all of them are written, empty ones included.
-/

namespace FencedCode

/-- The JSON value of a property value. -/
def PropertyValue.toJson : PropertyValue → Json
  | flag on => .bool on
  | number x => .number (.float x)
  | text s => .string s
  | list items => .array (items.map .string)

/-- The JSON object of the properties, in order of their names. -/
def Properties.toJson (p : Properties) : Json :=
  .object (p.entries.map fun (name, v) => (name, v.toJson))

/-- The member that names the kind of a node. -/
def Kind.member (k : Kind) : String × Json :=
  ("type", .string k.name)

namespace Node

mutual

/-- The JSON object of a node. -/
def toJson : Node → Json
  | root children => .object [Kind.root.member, ("children", .array (toJsons children))]
  | element tag properties children =>
    .object [Kind.element.member, ("tagName", .string tag),
      ("properties", properties.toJson), ("children", .array (toJsons children))]
  | text value => .object [Kind.text.member, ("value", .string value)]
  | comment value => .object [Kind.comment.member, ("value", .string value)]
  | doctype => .object [Kind.doctype.member]

/-- The JSON objects of several nodes. -/
def toJsons : List Node → List Json
  | [] => []
  | n :: rest => toJson n :: toJsons rest

end

end Node

/-- The JSON text of a node in a layout. -/
def Node.toJsonText (layout : Json.Layout) (n : Node) : String :=
  n.toJson.render layout

/-- The JSON text of a document in a layout. -/
def Root.toJsonText (layout : Json.Layout) (r : Root) : String :=
  r.node.toJson.render layout

end FencedCode
