import FencedCode.Template.Environment
import FencedCode.Text.Alphanumeric

/-!
# Templates

A setting can refer to variables of the environment.  A text with `$` and an opening brace
in it is a template and is taken apart into pieces: characters that stand for themselves,
dollar signs written twice, and references.  A reference in braces can have a default, which
starts behind `:-` and stands for itself; a reference without braces is a dollar sign and
the longest row of letters, numbers and underscores behind it.  Expansion replaces the
pieces from left to right, and values are not looked at again.
-/

namespace FencedCode.Template

/-- A piece of a template. -/
inductive Piece where
  /-- A character that stands for itself. -/
  | literal (c : Char)
  /-- A variable, and what to use if it is not set. -/
  | reference (name : String) (default : Option String)
  deriving DecidableEq

/-- Splits the inside of a pair of braces at the first `:-`. -/
def splitDefault : List Char → Option (List Char × List Char)
  | ':' :: '-' :: rest => some ([], rest)
  | c :: rest => (splitDefault rest).map fun (name, default) => (c :: name, default)
  | [] => none

/-- The reference that the inside of a pair of braces makes.  There is no default if no name
is in front of it. -/
def bracedReference (inside : List Char) : Piece :=
  match splitDefault inside with
  | some (c :: name, default) =>
    .reference (String.ofList (c :: name)) (some (String.ofList default))
  | _ => .reference (String.ofList inside) none

/-- The characters of names written without braces. -/
def isNameChar (c : Char) : Bool :=
  Text.isAlphanumeric c || c = '_'

theorem length_dropWhile_lt {p : Char → Bool} {c : Char} {text : List Char} :
    (text.dropWhile p).length < (c :: text).length :=
  Nat.lt_succ_of_le (List.dropWhile_suffix p).length_le

/-- The first piece of a text that starts with a dollar sign, given what follows the sign,
and the text behind the piece. -/
def dollarPiece (rest : List Char) : List Piece × List Char :=
  match rest with
  | [] => ([.literal '$'], [])
  | c :: tail =>
    if c = '\x7b' then
      match tail.dropWhile (· ≠ '\x7d') with
      | [] => ([.literal '$', .literal c], tail)
      | _ :: behind => ([bracedReference (tail.takeWhile (· ≠ '\x7d'))], behind)
    else if isNameChar c then
      ([.reference (String.ofList (c :: tail.takeWhile isNameChar)) none],
        tail.dropWhile isNameChar)
    else if c = '$' then
      ([.literal '$'], tail)
    else
      ([.literal '$'], c :: tail)

theorem length_dollarPiece_le (rest : List Char) :
    (dollarPiece rest).2.length ≤ rest.length := by
  unfold dollarPiece
  split
  · simp
  · rename_i c tail
    split
    · split
      · simp
      · rename_i d behind h
        have hle : (d :: behind).length ≤ tail.length :=
          h ▸ (List.dropWhile_suffix _).length_le
        simp only [List.length_cons] at hle ⊢
        omega
    · split
      · exact Nat.le_of_lt length_dropWhile_lt
      · split <;> simp

/-- The pieces of a template. -/
def pieces : List Char → List Piece
  | [] => []
  | c :: rest =>
    if c = '$' then
      (dollarPiece rest).1 ++ pieces (dollarPiece rest).2
    else
      .literal c :: pieces rest
  termination_by text => text.length
  decreasing_by
    · exact Nat.lt_succ_of_le (length_dollarPiece_le rest)
    · simp

/-- Replaces pieces from left to right; the failure is the name of the first variable that
is not set and has no default. -/
def substitute (env : Environment) : List Piece → Except String (List Char)
  | [] => .ok []
  | .literal c :: rest => do return c :: (← substitute env rest)
  | .reference name default :: rest =>
    match env.lookup name, default with
    | some value, _ => do return value.toList ++ (← substitute env rest)
    | none, some default => do return default.toList ++ (← substitute env rest)
    | none, none => .error name

/-- Whether a text is a template: whether a dollar sign and an opening brace stand side by
side in it. -/
def isTemplate : List Char → Bool
  | '$' :: '\x7b' :: _ => true
  | _ :: rest => isTemplate rest
  | [] => false

/-- Expands a text that is a template, and leaves any other text alone. -/
def expand (env : Environment) (text : String) : Except String String :=
  if isTemplate text.toList then
    (substitute env (pieces text.toList)).map String.ofList
  else
    .ok text

/-- The names of the variables that a text refers to. -/
def references (text : String) : List String :=
  (pieces text.toList).filterMap fun
    | .literal _ => none
    | .reference name _ => some name

end FencedCode.Template
