import FencedCode.Command.Rule
import FencedCode.Text.Split

/-!
# Which events are shown

A variable of the environment selects events by rules with commas between them.  Of the
rules for an event the most special one decides: the one with the longest start of an
origin, of these one that names a field, of these the one whose field comes last in order,
and of equal ones the last.  Without any rule only errors are shown.
-/

namespace FencedCode.Command

/-- The texts between the commas of a text, empty ones left out. -/
def partsOf (text : String) : List (List Char) :=
  (Text.split ',' text.toList).filter (· ≠ [])

/-- The events that are shown. -/
structure Selection where
  /-- The rules in order. -/
  rules : List Rule
  deriving DecidableEq

namespace Selection

/-- Only errors. -/
def errors : Selection :=
  ⟨[.events "" none 1]⟩

/-- Everything down to information. -/
def verbose : Selection :=
  ⟨[.events "" none 3]⟩

/-- Reads rules; a text that is no rule is ignored, which is told in a line. -/
def ofParts : List (List Char) → List Rule × List String
  | [] => ([], [])
  | part :: rest =>
    let (rules, lines) := ofParts rest
    match ruleOf part with
    | .ok rule => (rule :: rules, lines)
    | .error fault =>
      (rules, ("ignoring `" ++ String.ofList part ++ "`: " ++ fault.message) :: lines)

/-- The selection that a text makes, and the lines on what is ignored in it. -/
def ofText (text : String) : Selection × List String :=
  match ofParts (partsOf text) with
  | ([], lines) => (errors, lines)
  | (rules, lines) => (⟨rules⟩, lines)

/-- A rule that applies to an event. -/
structure Match where
  /-- The length of the start of the origin. -/
  length : Nat
  /-- The field. -/
  field : Option String
  /-- The rank of levels. -/
  rank : Nat

/-- Whether a text starts with another. -/
def startsWith (text start : List Char) : Bool :=
  text.take start.length = start

/-- How a rule applies to an event, if it does. -/
def match? (e : Event) : Rule → Option Match
  | .spans => none
  | .events origin field rank =>
    if startsWith e.origin.toList origin.toList && field.all e.fields.contains then
      some ⟨origin.length, field, rank⟩
    else
      none

/-- Whether a rule is less special than another. -/
def Match.isBelow (a b : Match) : Bool :=
  if a.length = b.length then
    match a.field, b.field with
    | none, some _ => true
    | some s, some t => s < t
    | _, none => false
  else
    a.length < b.length

/-- The more special of two rules, the later one if neither is. -/
def better (best : Option Match) (next : Match) : Option Match :=
  match best with
  | some b => if next.isBelow b then some b else some next
  | none => some next

/-- Whether an event is shown. -/
def shows (s : Selection) (e : Event) : Bool :=
  match (s.rules.filterMap (match? e)).foldl better none with
  | some m => e.level.rank ≤ m.rank
  | none => false

end Selection

end FencedCode.Command
