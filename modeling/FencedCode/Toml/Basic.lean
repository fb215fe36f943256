import FencedCode.Double.Text

/-!
# TOML tables

Settings files are written in TOML.  A table can be given in several ways, and whether it
can be extended later depends on how it was given: `Origin` keeps track of that while a
document is put together.
-/

namespace FencedCode.Toml

/-- How a table came about. -/
inductive Origin where
  /-- It is written between braces. -/
  | inline
  /-- It has a header of its own. -/
  | header
  /-- Only headers of tables in it are given so far. -/
  | implied
  /-- It stands in front of a dot in the key of an assignment. -/
  | dotted
  deriving DecidableEq

/-- How a table counts after a key has led through it: a table that is only implied is from
then on one that stands in front of a dot, if the key had dots. -/
def Origin.passed (byDots : Bool) : Origin → Origin
  | implied => if byDots then dotted else implied
  | origin => origin

/-- A TOML value. -/
inductive Value where
  /-- A string. -/
  | string (s : String)
  /-- An integer that fits 128 bits. -/
  | integer (n : Int)
  /-- A number with a fraction or an exponent, or one of the special numbers. -/
  | float (x : Double)
  /-- Something with the looks of a number that has no value: it is too large, or it lacks
  digits, or has wrong ones. -/
  | unreadable
  /-- A truth value. -/
  | boolean (b : Bool)
  /-- A date, a time, or both. -/
  | datetime (text : String)
  /-- An array in brackets. -/
  | array (items : List Value)
  /-- A row of tables, each with a header of its own. -/
  | tables (items : List Value)
  /-- A table. -/
  | table (origin : Origin) (entries : List (String × Value))

/-- The entries of a table, with its origin. -/
structure Table where
  /-- How the table came about. -/
  origin : Origin
  /-- The entries in the order in which they are written. -/
  entries : List (String × Value)

namespace Table

/-- The value of a key in a list of entries. -/
def valueIn (key : String) : List (String × Value) → Option Value
  | [] => none
  | (k, v) :: rest => if k = key then some v else valueIn key rest

/-- The value of a key. -/
def get? (t : Table) (key : String) : Option Value :=
  valueIn key t.entries

/-- Gives a key a value, in place of the one that it has. -/
def setIn (key : String) (value : Value) : List (String × Value) → List (String × Value)
  | [] => [(key, value)]
  | (k, v) :: rest => if k = key then (key, value) :: rest else (k, v) :: setIn key value rest

/-- Gives a key a value, in place of the one that it has. -/
def set (t : Table) (key : String) (value : Value) : Table :=
  { t with entries := setIn key value t.entries }

/-- The table as a value. -/
def value (t : Table) : Value :=
  .table t.origin t.entries

end Table

/-! ## Putting a document together -/

/-- An assignment to a key, given as the names between its dots. -/
structure Assignment where
  key : List String
  value : Value

/-- What stands above a group of assignments. -/
inductive Heading where
  /-- Nothing: the assignments at the start of a document. -/
  | top
  /-- The header of a table. -/
  | table (key : List String)
  /-- The header of the next table in a row. -/
  | nextTable (key : List String)

/-- A heading and the assignments below it. -/
structure Section where
  heading : Heading
  assignments : List Assignment

namespace Table

/-- Changes the table that names lead to.  Tables that are missing on the way are made; a
row of tables stands for its last one.  Assignments may not reach into a table with a header
of its own, and nothing may reach into a table between braces. -/
def descend (byDots : Bool) (f : Table → Option Table) : List String → Table → Option Table
  | [], t => f t
  | key :: rest, t =>
    match t.get? key with
    | none => do
      let inner ← descend byDots f rest ⟨if byDots then .dotted else .implied, []⟩
      return t.set key inner.value
    | some (.table origin entries) =>
      if origin = .inline ∨ byDots ∧ origin = .header then
        none
      else do
        let inner ← descend byDots f rest ⟨origin.passed byDots, entries⟩
        return t.set key inner.value
    | some (.tables items) =>
      match items.getLast? with
      | some (.table origin entries) => do
        let inner ← descend byDots f rest ⟨origin, entries⟩
        return t.set key (.tables (items.dropLast ++ [inner.value]))
      | _ => none
    | some _ => none

/-- Gives a new key its value.  A table made by dots takes only assignments with dots, and
other tables take only those without. -/
def addNew (byDots : Bool) (key : String) (value : Value) (t : Table) : Option Table :=
  if (t.origin = .dotted) = byDots ∧ (t.get? key).isNone then some (t.set key value) else none

/-- Carries out an assignment. -/
def assign (t : Table) (a : Assignment) : Option Table :=
  match a.key.getLast? with
  | none => none
  | some key =>
    let way := a.key.dropLast
    descend true (addNew (!way.isEmpty) key a.value) way t

/-- Carries out assignments one after the other. -/
def assignAll : Table → List Assignment → Option Table
  | t, [] => some t
  | t, a :: rest => do assignAll (← t.assign a) rest

/-- Opens the table of a header and carries out the assignments below it.  A table can have
one header only. -/
def openTable (key : String) (assignments : List Assignment) (t : Table) : Option Table :=
  match t.get? key with
  | none => do return t.set key (← assignAll ⟨.header, []⟩ assignments).value
  | some (.table .implied entries) => do
    return t.set key (← assignAll ⟨.header, entries⟩ assignments).value
  | some _ => none

/-- Opens the next table of a row and carries out the assignments below its header. -/
def openNext (key : String) (assignments : List Assignment) (t : Table) : Option Table := do
  let new := (← assignAll ⟨.header, []⟩ assignments).value
  match t.get? key with
  | none => return t.set key (.tables [new])
  | some (.tables items) => return t.set key (.tables (items ++ [new]))
  | some _ => none

/-- Adds a section to the table of a whole document. -/
def addSection (t : Table) (s : Section) : Option Table :=
  match s.heading with
  | .top => assignAll t s.assignments
  | .table key =>
    match key.getLast? with
    | none => none
    | some name => descend false (openTable name s.assignments) key.dropLast t
  | .nextTable key =>
    match key.getLast? with
    | none => none
    | some name => descend false (openNext name s.assignments) key.dropLast t

/-- The table of a whole document. -/
def ofSections : Table → List Section → Option Table
  | t, [] => some t
  | t, s :: rest => do ofSections (← t.addSection s) rest

end Table

end FencedCode.Toml
