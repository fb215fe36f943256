import FencedCode.Template.Environment

/-!
# Styles

A message to the user can have a colour.  The colour is set by an escape sequence in front of
the text and taken back by one behind it, and both are left out where colours are not shown.
-/

namespace FencedCode.Command

/-- How a message looks. -/
inductive Style where
  | plain
  | red
  | green
  | yellow
  deriving DecidableEq

/-- The number of a colour in an escape sequence. -/
def Style.code? : Style → Option String
  | plain => none
  | red => some "31"
  | green => some "32"
  | yellow => some "33"

/-- A text in a style, if colours are shown. -/
def Style.paint (style : Style) (colours : Bool) (text : String) : String :=
  match colours, style.code? with
  | true, some code => "\x1b[" ++ code ++ "m" ++ text ++ "\x1b[0m"
  | _, _ => text

/-- The variables that decide whether colours are shown. -/
def colourVariables : List String :=
  ["NO_COLOR", "TERM", "CLICOLOR", "CLICOLOR_FORCE"]

/-- Whether colours are shown: if the standard output is a terminal that can show them, unless
the environment forbids it, and always if the environment asks for it. -/
def showsColours (env : Environment) (isTerminal : Bool) : Bool :=
  let canShow := isTerminal && (env.lookup "NO_COLOR").isNone &&
    (env.lookup "TERM").any (· ≠ "dumb")
  (canShow && (env.lookup "CLICOLOR").getD "1" ≠ "0") ||
    (env.lookup "CLICOLOR_FORCE").getD "0" ≠ "0"

end FencedCode.Command
