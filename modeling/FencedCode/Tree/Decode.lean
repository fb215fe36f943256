import FencedCode.Json.Reader
import FencedCode.Log
import FencedCode.Tree.Node

/-!
# Documents from JSON

Decoding turns JSON into nodes.  Shape faults are reported in the order in which the text
shows them: the kind of a node comes first, wherever its member `type` stands, then the
known members in the order of the text, each with everything below it, and then members
that are missing.  Unknown members are ignored.  Property values are read leniently: what
no property can hold is dropped, and the drop is reported.

The outermost node is decoded while it is read, so that a bad kind is reported even if the
text behind it is faulty.
-/

namespace FencedCode

open Json (Error Mismatch)

/-! ## Property values -/

namespace PropertyValue

/-- The text that an item of a list becomes. -/
def itemText? : Json → Option String
  | .string s => some s
  | .number n => n.chars?.map String.ofList
  | .bool b => some (if b then "true" else "false")
  | _ => none

/-- The lenient conversion of a member of a property map.  Numbers and truth values in a
list become texts; one item that has no text makes the whole list inconvertible. -/
def ofJson? : Json → Option PropertyValue
  | .bool b => some (flag b)
  | .number n => some (number n.toDouble)
  | .string s => some (text s)
  | .array items => (items.mapM itemText?).map list
  | _ => none

/-- A truth value as a switch. -/
def ofBool? : Json → Option PropertyValue
  | .bool b => some (flag b)
  | _ => none

/-- A number as a number. -/
def ofNumber? : Json → Option PropertyValue
  | .number n => some (number n.toDouble)
  | _ => none

/-- The text of a string. -/
def stringText? : Json → Option String
  | .string s => some s
  | _ => none

/-- A string as a text. -/
def ofString? (j : Json) : Option PropertyValue :=
  (stringText? j).map text

/-- An array of nothing but strings as a list. -/
def ofStrings? : Json → Option PropertyValue
  | .array items => (items.mapM stringText?).map list
  | _ => none

/-- The forms of a value that stands on its own, in the order in which they are tried. -/
def forms : List (Json → Option PropertyValue) :=
  [ofBool?, ofNumber?, ofString?, ofStrings?]

/-- The strict conversion of a value that stands on its own, which takes the first form that
the value has. -/
def ofJsonStrict? (j : Json) : Option PropertyValue :=
  forms.findSome? fun form => form j

/-- Reads a value that stands on its own. -/
def ofJsonText (text : String) : Except Error PropertyValue := do
  let (j, rest) ← Json.readValue (text.length + 1) Json.maxDepth text.toList
  match ofJsonStrict? j with
  | none => .error (.misshapen .notPropertyValue)
  | some v =>
    Json.readEnd rest
    return v

end PropertyValue

/-! ## Properties -/

namespace Properties

/-- The properties that the members of an object describe.  Of members with one name the
last counts, and only then is it converted. -/
def ofMembers (members : List (String × Json)) : Properties :=
  (NameMap.ofList members).filterMap PropertyValue.ofJson?

/-- Whether a member is dropped with a report; `null` is dropped in silence. -/
def isUnsupported : Json → Bool
  | .null => false
  | j => (PropertyValue.ofJson? j).isNone

/-- The reports on the members of an object, in order of their names. -/
def droppedAmong (members : List (String × Json)) : List Event :=
  ((NameMap.ofList members).entries.filter fun e => isUnsupported e.2).map fun e =>
    .propertyDropped e.1

/-- The properties of a JSON value; `null` is an empty map. -/
def ofJson : Json → Logged Error Properties
  | .null => pure {}
  | .object members => do
    Logged.report (droppedAmong members)
    return ofMembers members
  | j => Logged.fail (.misshapen (.wrongType j.found .map))

/-- Reads a property map that stands on its own. -/
def ofJsonText (text : String) : Except Error Properties := do
  let fuel := text.length + 1
  match Json.skipBlanks text.toList with
  | [] => .error .truncated
  | '{' :: rest =>
    let step := Json.collectMember (Json.readValue fuel (Json.maxDepth - 1))
    let (members, rest) ← Json.foldMembers step fuel true [] rest
    Json.readEnd rest
    return ofMembers members.reverse
  | '[' :: _ => .error (.misshapen (.wrongType .sequence .map))
  | c :: rest =>
    let (j, rest) ← Json.readScalar c rest
    match j with
    | .null =>
      Json.readEnd rest
      return {}
    | j => .error (.misshapen (.wrongType j.found .map))

end Properties

/-! ## Nodes -/

/-- The fields of a node as far as they are read. -/
structure Fields where
  tag : Option String := none
  properties : Option Properties := none
  children : Option (List Node) := none
  value : Option String := none

/-- The fields that a node of a kind can have. -/
inductive Field where
  | tag
  | properties
  | children
  | value
  deriving DecidableEq

namespace Field

/-- The name of the member that holds a field. -/
def name : Field → String
  | tag => "tagName"
  | properties => "properties"
  | children => "children"
  | value => "value"

/-- The fields of a kind, in the order in which an array lists them. -/
def ofKind : Kind → List Field
  | .root => [children]
  | .element => [tag, properties, children]
  | .text => [value]
  | .comment => [value]
  | .doctype => []

/-- The field of a kind that a member holds, if it is one. -/
def ofName? (k : Kind) (s : String) : Option Field :=
  (ofKind k).find? fun f => f.name = s

end Field

/-- Whether a field is read already. -/
def Fields.has (fields : Fields) : Field → Bool
  | .tag => fields.tag.isSome
  | .properties => fields.properties.isSome
  | .children => fields.children.isSome
  | .value => fields.value.isSome

namespace Node

/-- Failure for a shape fault. -/
def misshapen {α : Type} (cause : Mismatch) : Logged Error α :=
  Logged.fail (.misshapen cause)

/-- The kind that a string names. -/
def kindOfName (s : String) : Except Error Kind :=
  match Kind.ofName? s with
  | some k => .ok k
  | none => .error (.misshapen (.unknownName s (Kind.all.map Kind.name)))

/-- The kind of a node below the outermost one: its name, or its position among the
kinds. -/
def kindOfJson : Json → Except Error Kind
  | .string s => kindOfName s
  | .number (.integer n) =>
    if n < 0 then .error (.misshapen (.wrongType (.number (.integer n)) .kindName))
    else
      match Kind.all[n.toNat]? with
      | some k => .ok k
      | none => .error (.misshapen (.unknownIndex n.toNat Kind.all.length))
  | j => .error (.misshapen (.wrongType j.found .kindName))

/-- The kind of a node, given its members. -/
def kindOfMembers : Option Kind → List (String × Json) → Except Error Kind
  | none, [] => .error (.misshapen (.missingField "type"))
  | some k, [] => .ok k
  | kind, (name, j) :: rest =>
    if name = "type" then
      match kind with
      | some _ => .error (.misshapen (.duplicateField "type"))
      | none => do kindOfMembers (some (← kindOfJson j)) rest
    else
      kindOfMembers kind rest

/-- The text of a field that has to be a string. -/
def stringField : Json → Logged Error String
  | .string s => pure s
  | j => misshapen (.wrongType j.found .string)

/-- The node of a kind with the fields that were read; only the tag has no default. -/
def ofFields (kind : Kind) (fields : Fields) : Logged Error Node :=
  match kind with
  | .root => pure (.root (fields.children.getD []))
  | .element =>
    match fields.tag with
    | none => misshapen (.missingField Field.tag.name)
    | some tag =>
      pure (.element tag (fields.properties.getD {}) (fields.children.getD []))
  | .text => pure (.text (fields.value.getD ""))
  | .comment => pure (.comment (fields.value.getD ""))
  | .doctype => pure .doctype

/-- What an array says if it has no item for the first field of a kind. -/
def expectedFields (kind : Kind) : String :=
  match kind with
  | .element => "struct Element with 3 elements"
  | k => "struct " ++ k.name

/-- Decodes one field that is not an array of nodes. -/
def readLeaf (fields : Fields) (field : Field) (j : Json) : Logged Error Fields :=
  match field with
  | .tag => do return { fields with tag := some (← stringField j) }
  | .properties => do return { fields with properties := some (← Properties.ofJson j) }
  | .children => misshapen (.wrongType j.found .sequence)
  | .value => do return { fields with value := some (← stringField j) }

mutual

/-- Decodes a node. -/
def ofJson : Json → Logged Error Node
  | .object members => do
    let kind ← Logged.ofExcept (kindOfMembers none members)
    ofFields kind (← readMembers kind {} members)
  | .array [] => misshapen (.missingField "type")
  | .array (tag :: items) => do
    let kind ← Logged.ofExcept (kindOfJson tag)
    ofFields kind (← readItems kind (Field.ofKind kind) 0 {} items)
  | j => misshapen (.wrongType j.found .node)

/-- Decodes several nodes. -/
def ofJsons : List Json → Logged Error (List Node)
  | [] => pure []
  | j :: rest => do
    let n ← ofJson j
    return n :: (← ofJsons rest)

/-- Decodes one field. -/
def readField (fields : Fields) (field : Field) : Json → Logged Error Fields
  | .array items =>
    match field with
    | .children => do return { fields with children := some (← ofJsons items) }
    | field => readLeaf fields field (.array items)
  | j => readLeaf fields field j

/-- Decodes the members of a node; unknown ones are ignored. -/
def readMembers (kind : Kind) (fields : Fields) :
    List (String × Json) → Logged Error Fields
  | [] => pure fields
  | (name, j) :: rest =>
    match Field.ofName? kind name with
    | none => readMembers kind fields rest
    | some field =>
      if fields.has field then misshapen (.duplicateField name)
      else do readMembers kind (← readField fields field j) rest

/-- Decodes the items of a node written as an array, `count` of which are read. -/
def readItems (kind : Kind) (expected : List Field) (count : Nat) (fields : Fields) :
    List Json → Logged Error Fields
  | [] =>
    match expected with
    | .tag :: _ => misshapen (.tooFewItems count (expectedFields kind))
    | _ => pure fields
  | j :: rest =>
    match expected with
    | [] => misshapen (.tooManyItems (count + rest.length + 1) count)
    | field :: expected => do
      readItems kind expected (count + 1) (← readField fields field j) rest

end

/-! ## The outermost node -/

/-- Reads the kind of the outermost node, which has to be named. -/
def readKind (text : List Char) : Except Error (Kind × List Char) :=
  match Json.skipBlanks text with
  | [] => .error .truncated
  | '"' :: rest => do
    let (s, rest) ← Json.readString [] .plain rest
    return (← kindOfName s, rest)
  | '[' :: _ => .error (.misshapen (.wrongType .sequence .kindName))
  | '{' :: _ => .error (.misshapen (.wrongType .map .kindName))
  | c :: rest => do
    let (j, _) ← Json.readScalar c rest
    .error (.misshapen (.wrongType j.found .kindName))

/-- The step that reads a member of the outermost node: its kind, or a member to be kept. -/
def outerMember (read : List Char → Except Error (Json × List Char))
    (state : Option Kind × List (String × Json)) (name : String) (text : List Char) :
    Except Error ((Option Kind × List (String × Json)) × List Char) :=
  if name = "type" then
    match state.1 with
    | some _ => .error (.misshapen (.duplicateField "type"))
    | none => do
      let (kind, rest) ← readKind (← Json.readColon text)
      return ((some kind, state.2), rest)
  else do
    let (members, rest) ← Json.collectMember read state.2 name text
    return ((state.1, members), rest)

/-- What is known of the outermost node when its text is read: its kind, and the members or
the items to be decoded. -/
inductive Outer where
  | members (kind : Kind) (members : List (String × Json))
  | items (kind : Kind) (items : List Json)

/-- Reads the outermost node. -/
def readOuter (fuel : Nat) (text : List Char) : Except Error (Outer × List Char) :=
  let read := Json.readValue fuel (Json.maxDepth - 1)
  match Json.skipBlanks text with
  | [] => .error .truncated
  | '{' :: rest => do
    let ((kind, members), rest) ←
      Json.foldMembers (outerMember read) fuel true (none, []) rest
    match kind with
    | none => .error (.misshapen (.missingField "type"))
    | some kind => return (.members kind members.reverse, rest)
  | '[' :: rest =>
    match Json.skipBlanks rest with
    | ']' :: _ => .error (.misshapen (.missingField "type"))
    | rest => do
      let (kind, rest) ← readKind rest
      let (items, rest) ← Json.foldItems (Json.collectItem read) fuel false [] rest
      return (.items kind items.reverse, rest)
  | c :: rest => do
    let (j, _) ← Json.readScalar c rest
    .error (.misshapen (.wrongType j.found .node))

/-- Decodes the outermost node. -/
def ofOuter : Outer → Logged Error Node
  | .members kind members => do ofFields kind (← readMembers kind {} members)
  | .items kind items => do ofFields kind (← readItems kind (Field.ofKind kind) 0 {} items)

/-- Decodes the text of a node. -/
def ofJsonText (text : String) : Logged Error Node := do
  let (outer, rest) ← Logged.ofExcept (readOuter (text.length + 1) text.toList)
  let n ← ofOuter outer
  Logged.ofExcept (Json.readEnd rest)
  return n

end Node

/-! ## Documents -/

/-- Why a text is no document. -/
inductive DocumentError where
  /-- It is not the JSON text of a node. -/
  | json (cause : Error)
  /-- The node is not a root. -/
  | notRoot (kind : Kind)

/-- Decodes the text of a document. -/
def Root.ofJsonText (text : String) : Logged DocumentError Root := do
  match ← (Node.ofJsonText text).mapError .json with
  | .root children => return ⟨children⟩
  | n => Logged.fail (.notRoot n.kind)

/-- The words for a text that is no document.  The words for a text that is not even JSON
are left open. -/
def DocumentError.message : DocumentError → String
  | json (.misshapen cause) => "JSON error: " ++ cause.message
  | json _ => "JSON error: "
  | notRoot kind => "expected a root node at top level, found " ++ kind.name

end FencedCode
