/-!
# The environment

The environment of a run is a row of texts of the form `name=value`.
-/

namespace FencedCode

/-- The variables of a run, with their values. -/
structure Environment where
  /-- Names and values. -/
  entries : List (String × String)

namespace Environment

/-- What follows a text at the start of another, if it starts with it. -/
def afterStart? : List Char → List Char → Option (List Char)
  | [], text => some text
  | _ :: _, [] => none
  | s :: start, c :: text => if c = s then afterStart? start text else none

/-- The value that an entry gives to a name: what follows the name and an equals sign. -/
def valueIn? (name : String) (entry : String × String) : Option String :=
  (afterStart? (name.toList ++ ['=']) (entry.1.toList ++ '=' :: entry.2.toList)).map
    String.ofList

/-- The value of a variable, if it is set.  The empty name is never set. -/
def lookup (env : Environment) (name : String) : Option String :=
  if name.isEmpty then none else env.entries.findSome? (valueIn? name)

end Environment

end FencedCode
