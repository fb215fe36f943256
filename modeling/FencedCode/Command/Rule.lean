import FencedCode.Double.Text
import FencedCode.Log
import FencedCode.Pattern.Use
import FencedCode.Text.Split

/-!
# Rules on events

A rule says up to which level some events are shown.  It is a level, or the start of an
origin, or such a start and a level behind an equals sign.  Brackets in front of the equals
sign narrow it down: they hold the name of a span of time, or the name of a field in braces,
or both.  Behind an equals sign in the braces stands what the field has to hold: a truth
value, a number, or a pattern.  Nothing that is reported belongs to a span or is asked for
the content of a field, so such rules select nothing.

A rule is read character by character, from its first character on that is no blank.  The
places of its parts are counted in bytes from there, but the parts are cut out of the text
with its blanks.
-/

namespace FencedCode.Command

/-- A rule on events. -/
inductive Rule where
  /-- Events whose origin starts with a text, and that have a field, are shown up to a rank
  of levels; zero shows nothing. -/
  | events (origin : String) (field : Option String) (rank : Nat)
  /-- Only events in a span are shown. -/
  | spans
  deriving DecidableEq

/-- Why a text is no rule. -/
inductive RuleFault where
  | notARule
  | notALevel
  /-- The pattern for a field cannot be used. -/
  | badField (cause : Pattern.Fault)
  deriving DecidableEq

/-- The words for a text that is no rule. -/
def RuleFault.message : RuleFault → String
  | notARule => "invalid filter directive"
  | badField cause => "invalid field filter: " ++ cause.message
  | notALevel =>
    "error parsing level filter: expected one of \"off\", \"error\", \"warn\", " ++
      "\"info\", \"debug\", \"trace\", or a number 0-5"

/-! ## Levels -/

/-- The rank that digits stand for, which is at most five. -/
def rankOfDigits? (digits : List Char) : Option Nat :=
  if digits.isEmpty ∨ digits.any (fun c => !c.isDigit) then none
  else
    let n := digits.foldl (fun n c => 10 * n + (c.toNat - '0'.toNat)) 0
    if n ≤ 5 then some n else none

/-- The rank that a text stands for: a number, perhaps with a plus sign, or the name of a
level in any case. -/
def rankOf? (text : List Char) : Option Nat :=
  match String.ofList (text.map Char.toLower) with
  | "off" => some 0
  | "error" => some 1
  | "warn" => some 2
  | "info" => some 3
  | "debug" => some 4
  | "trace" => some 5
  | _ =>
    match text with
    | '+' :: digits => rankOfDigits? digits
    | digits => rankOfDigits? digits

/-- The rank that shows everything. -/
def fullRank : Nat :=
  5

/-! ## Reading -/

/-- Where the reader of a rule stands, with the place at which its part starts. -/
inductive RuleState where
  /-- In front of everything. -/
  | start
  /-- In a level or the start of an origin. -/
  | origin (first : Nat)
  /-- In the name of a span. -/
  | span (first : Nat)
  /-- In a field. -/
  | field (first : Nat)
  /-- Behind the braces. -/
  | afterField
  /-- Behind the brackets. -/
  | afterBracket
  /-- In a level. -/
  | level (first : Nat)

/-- A field that events have to have. -/
structure FieldRule where
  /-- The name of the field. -/
  name : List Char
  /-- What it has to hold, if that matters. -/
  content : Option (List Char)

/-- Whether what a field has to hold is a truth value or a number. -/
def isPlainContent (content : List Char) : Bool :=
  let text := String.ofList content
  text = "true" || text = "false" || (Double.ofText? text).isSome

/-- Reads the text between braces.  Only what stands in front of a second equals sign
counts. -/
def fieldOf (text : List Char) : Except RuleFault FieldRule :=
  match Text.split '=' text with
  | name :: content :: _ =>
    if isPlainContent content then
      .ok ⟨name, some content⟩
    else
      match Pattern.fault? content with
      | none => .ok ⟨name, some content⟩
      | some fault => .error (.badField fault)
  | _ => if text.isEmpty then .error .notARule else .ok ⟨text, none⟩

/-- What is read of a rule. -/
structure RuleDraft where
  /-- The start of an origin. -/
  origin : Option (List Char) := none
  /-- Whether a span is named. -/
  inSpan : Bool := false
  /-- The field. -/
  field : Option FieldRule := none

/-- The text behind so many bytes. -/
def dropBytes : Nat → List Char → List Char
  | 0, text => text
  | _ + 1, [] => []
  | count + 1, c :: rest => dropBytes (count + 1 - c.utf8Size) rest

/-- So many bytes from the start of a text on. -/
def takeBytes : Nat → List Char → List Char
  | 0, _ => []
  | _ + 1, [] => []
  | count + 1, c :: rest => c :: takeBytes (count + 1 - c.utf8Size) rest

/-- The part of a text between two places. -/
def cut (text : List Char) (first last : Nat) : List Char :=
  takeBytes (last - first) (dropBytes first text)

/-- Whether a rule can start with a character, brackets aside. -/
def startsRule (c : Char) : Bool :=
  c = '-' || c = ':' || c = '_' || Text.isAlphanumeric c

/-- What a character at a place makes of a rule that is read. -/
def ruleStep (text : List Char) (draft : RuleDraft) (place : Nat) (c : Char) :
    RuleState → Except RuleFault (RuleDraft × RuleState)
  | .start =>
    if c = '[' then .ok (draft, .span (place + 1))
    else if startsRule c then .ok (draft, .origin place)
    else .error .notARule
  | .origin first =>
    if c = '=' then .ok ({ draft with origin := cut text first place }, .level (place + 1))
    else if c = '[' then .ok ({ draft with origin := cut text first place }, .span (place + 1))
    else .ok (draft, .origin first)
  | .span first =>
    if c = ']' then .ok ({ draft with inSpan := true }, .afterBracket)
    else if c = '\x7b' then
      .ok ({ draft with inSpan := !(cut text first place).isEmpty }, .field (place + 1))
    else .ok (draft, .span first)
  | .field first =>
    if c = '\x7d' then do
      let field ← fieldOf (cut text first place)
      return ({ draft with field := some field }, .afterField)
    else .ok (draft, .field first)
  | .afterField => if c = ']' then .ok (draft, .afterBracket) else .error .notARule
  | .afterBracket => if c = '=' then .ok (draft, .level (place + 1)) else .error .notARule
  | .level first => .ok (draft, .level first)

/-- Reads a rule, of which the characters from a place on are left. -/
def readRule (text : List Char) (draft : RuleDraft) (place : Nat) (state : RuleState) :
    List Char → Except RuleFault (RuleDraft × RuleState)
  | [] => .ok (draft, state)
  | c :: rest => do
    let (draft, state) ← ruleStep text draft place c state
    readRule text draft (place + c.utf8Size) state rest

/-- The rule of a draft, with its rank. -/
def RuleDraft.rule (draft : RuleDraft) (rank : Nat) : Rule :=
  let origin := String.ofList (draft.origin.getD [])
  if draft.inSpan then .spans
  else
    match draft.field with
    | none => .events origin none rank
    | some ⟨name, none⟩ => .events origin (some (String.ofList name)) rank
    | some ⟨_, some _⟩ => .spans

/-- The rule that is made of what is read. -/
def finishRule (text : List Char) (draft : RuleDraft) : RuleState → Except RuleFault Rule
  | .origin first =>
    match rankOf? (dropBytes first text) with
    | some rank => .ok ({ draft with origin := none }.rule rank)
    | none => .ok ({ draft with origin := some (dropBytes first text) }.rule fullRank)
  | .level first =>
    if (dropBytes first text).isEmpty then .ok (draft.rule fullRank)
    else
      match rankOf? (dropBytes first text) with
      | some rank => .ok (draft.rule rank)
      | none => .error .notALevel
  | .afterBracket => .ok (draft.rule fullRank)
  | _ => .error .notARule

/-- A text without the blanks around it. -/
def trimmed (text : List Char) : List Char :=
  ((text.dropWhile Text.isBlank).reverse.dropWhile Text.isBlank).reverse

/-- The rule that a text stands for. -/
def ruleOf (text : List Char) : Except RuleFault Rule := do
  let (draft, state) ← readRule text {} 0 .start (trimmed text)
  finishRule text draft state

end FencedCode.Command
