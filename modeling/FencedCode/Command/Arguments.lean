import FencedCode.Template.Environment

/-!
# Arguments

The command line names one of two commands and gives it options and at most one input.  An
option has a long name, and most have a letter too; letters can be run together.  The value
of an option follows its name behind an equals sign, or its letter directly, or is the next
argument, which then may not look like an option.  Every option can be given once.

Arguments are read from left to right.  Where one of them asks for help, what stands in front
of it still has to be right, and what follows is not looked at.
-/

namespace FencedCode.Command

/-- The forms in which a document can be written. -/
inductive Format where
  | json
  | html
  deriving DecidableEq

/-- The arguments of the command that wraps. -/
structure WrapArguments where
  /-- The file to read. -/
  input : Option String := none
  /-- The file to write. -/
  output : Option String := none
  /-- The form in which the document is written. -/
  format : Format := .json
  /-- Whether JSON is indented. -/
  pretty : Bool := false
  /-- The language to wrap. -/
  language : Option String := none
  /-- The class of wrappers. -/
  markerClass : Option String := none
  /-- The settings file. -/
  settings : Option String := none
  /-- Whether events are shown. -/
  verbose : Bool := false
  deriving DecidableEq

/-- The arguments of the command that only looks. -/
structure ScanArguments where
  /-- The file to read. -/
  input : Option String := none
  /-- The language to look for. -/
  language : Option String := none
  /-- The settings file. -/
  settings : Option String := none
  /-- Whether events are shown. -/
  verbose : Bool := false
  deriving DecidableEq

/-- What help can be about. -/
inductive HelpTopic where
  | program
  | wrap
  | scan
  | help
  deriving DecidableEq

/-- What the command line asks for. -/
inductive Invocation where
  | wrap (a : WrapArguments)
  | scan (a : ScanArguments)
  /-- Help, which is short or long. -/
  | help (topic : HelpTopic) (isLong : Bool)
  | version
  deriving DecidableEq

/-! ## Options -/

/-- The options of the commands. -/
inductive Flag where
  | output
  | format
  | pretty
  | language
  | wrapperClass
  | settings
  | verbose
  deriving DecidableEq

namespace Flag

/-- The long name of an option. -/
def long : Flag → String
  | output => "output"
  | format => "format"
  | pretty => "pretty"
  | language => "language"
  | wrapperClass => "wrapper-class"
  | settings => "config"
  | verbose => "verbose"

/-- The letter of an option. -/
def letter? : Flag → Option Char
  | output => some 'o'
  | format => some 'f'
  | language => some 'l'
  | settings => some 'c'
  | verbose => some 'v'
  | pretty => none
  | wrapperClass => none

/-- Whether an option has a value. -/
def hasValue : Flag → Bool
  | pretty => false
  | verbose => false
  | _ => true

/-- The options of the command that wraps. -/
def ofWrap : List Flag :=
  [output, format, pretty, language, wrapperClass, settings, verbose]

/-- The options of the command that only looks. -/
def ofScan : List Flag :=
  [language, settings, verbose]

end Flag

/-- A part of the command line. -/
inductive Given where
  /-- An option, with its value if it has one. -/
  | flag (f : Flag) (value : Option String)
  /-- An input. -/
  | input (path : String)
  /-- The wish for help, short or long. -/
  | help (isLong : Bool)
  deriving DecidableEq

/-- Whether an argument can be the value of the option in front of it. -/
def isValue (argument : String) : Bool :=
  argument.toList.head? ≠ some '-' || argument = "-"

/-- Splits the name of a long option from a value behind an equals sign. -/
def splitEquals (text : List Char) : String × Option String :=
  let name := String.ofList (text.takeWhile (· ≠ '='))
  match text.dropWhile (· ≠ '=') with
  | [] => (name, none)
  | _ :: value => (name, some (String.ofList value))

/-- Reads letters that are run together: the options, and the last of them by itself if its
value is still to come. -/
def readLetters (flags : List Flag) : List Char → Option (List Given × Option Flag)
  | [] => some ([], none)
  | c :: rest =>
    if c = 'h' then some ([.help false], none)
    else
      match flags.find? fun f => f.letter? = some c with
      | none => none
      | some f =>
        if f.hasValue then
          match rest with
          | [] => some ([], some f)
          | '=' :: value => some ([.flag f (some (String.ofList value))], none)
          | value => some ([.flag f (some (String.ofList value))], none)
        else do
          let (given, open?) ← readLetters flags rest
          return (.flag f none :: given, open?)

/-- Reads a long option: what it gives, and the option whose value is still to come. -/
def readLong (flags : List Flag) (text : List Char) : Option (List Given × Option Flag) :=
  let (name, value) := splitEquals text
  if name = "help" then
    match value with
    | none => some ([.help true], none)
    | some _ => none
  else
    match flags.find? fun f => f.long = name, value with
    | none, _ => none
    | some f, none => if f.hasValue then some ([], some f) else some ([.flag f none], none)
    | some f, some value => if f.hasValue then some ([.flag f (some value)], none) else none

/-- Reads one argument: what it gives, and the option whose value is still to come. -/
def readArgument (flags : List Flag) (argument : String) : Option (List Given × Option Flag) :=
  match argument.toList with
  | '-' :: '-' :: text => readLong flags text
  | ['-'] => some ([.input argument], none)
  | '-' :: letters => readLetters flags letters
  | _ => some ([.input argument], none)

/-- The wish for help among parts of the command line: whether long help is wanted. -/
def helpIn? (given : List Given) : Option Bool :=
  given.findSome? fun
    | .help isLong => some isLong
    | _ => none

/-- Reads the arguments of a command, up to a wish for help.  Two hyphens end the options. -/
def readArguments (flags : List Flag) : List String → Option (List Given)
  | [] => some []
  | argument :: rest =>
    if argument = "--" then
      some (rest.map .input)
    else
      match readArgument flags argument with
      | none => none
      | some (given, none) =>
        if (helpIn? given).isSome then some given
        else do return given ++ (← readArguments flags rest)
      | some (given, some f) =>
        match rest with
        | [] => none
        | value :: rest =>
          if isValue value then do
            return given ++ .flag f (some value) :: (← readArguments flags rest)
          else
            none

/-! ## Commands -/

/-- Whether no option and no second input is given twice. -/
def onlyOnce : List Given → Bool
  | [] => true
  | .input _ :: rest =>
    (rest.all fun | .input _ => false | _ => true) && onlyOnce rest
  | .flag f _ :: rest =>
    (rest.all fun | .flag g _ => g ≠ f | _ => true) && onlyOnce rest
  | .help _ :: rest => onlyOnce rest

/-- The value of an option. -/
def valueOf? (f : Flag) (given : List Given) : Option String :=
  given.findSome? fun
    | .flag g value => if g = f then value else none
    | _ => none

/-- Whether an option is given. -/
def isGiven (f : Flag) (given : List Given) : Bool :=
  given.any fun
    | .flag g _ => g = f
    | _ => false

/-- The input. -/
def inputOf? (given : List Given) : Option String :=
  given.findSome? fun
    | .input path => some path
    | _ => none

/-- A path, which may not be empty. -/
def checkPath (path : Option String) : Option (Option String) :=
  if path = some "" then none else some path

/-- The form that a name stands for. -/
def formatOf? : Option String → Option Format
  | none => some .json
  | some "json" => some .json
  | some "html" => some .html
  | some _ => none

/-- The variable that gives the language if no option does. -/
def languageVariable : String :=
  "PREWRAP_LANGUAGE"

/-- The language that the command line or else the environment gives. -/
def languageOf? (env : Environment) (given : List Given) : Option String :=
  (valueOf? .language given).or (env.lookup languageVariable)

/-- The arguments of the command that wraps. -/
def wrapArguments? (env : Environment) (given : List Given) : Option WrapArguments := do
  if onlyOnce given then
    return {
      input := ← checkPath (inputOf? given)
      output := ← checkPath (valueOf? .output given)
      format := ← formatOf? (valueOf? .format given)
      pretty := isGiven .pretty given
      language := languageOf? env given
      markerClass := valueOf? .wrapperClass given
      settings := ← checkPath (valueOf? .settings given)
      verbose := isGiven .verbose given }
  else
    none

/-- The arguments of the command that only looks. -/
def scanArguments? (env : Environment) (given : List Given) : Option ScanArguments := do
  if onlyOnce given then
    return {
      input := ← checkPath (inputOf? given)
      language := languageOf? env given
      settings := ← checkPath (valueOf? .settings given)
      verbose := isGiven .verbose given }
  else
    none

/-- Runs a command with what is given, or tells about it if help is wanted. -/
def Invocation.orHelp (topic : HelpTopic) (given : List Given) (i : Invocation) : Invocation :=
  match helpIn? given with
  | some isLong => help topic isLong
  | none => i

/-- What the arguments of the command that wraps ask for. -/
def wrapInvocation? (env : Environment) (arguments : List String) : Option Invocation := do
  let given ← readArguments Flag.ofWrap arguments
  let a ← wrapArguments? env given
  return (Invocation.wrap a).orHelp .wrap given

/-- What the arguments of the command that only looks ask for. -/
def scanInvocation? (env : Environment) (arguments : List String) : Option Invocation := do
  let given ← readArguments Flag.ofScan arguments
  let a ← scanArguments? env given
  return (Invocation.scan a).orHelp .scan given

/-- What the arguments of the command that helps ask for. -/
def helpInvocation? : List String → Option Invocation
  | [] => some (.help .program true)
  | ["wrap"] => some (.help .wrap true)
  | ["scan"] => some (.help .scan true)
  | ["help"] => some (.help .help true)
  | _ => none

/-- Whether the first argument asks for the version. -/
def asksVersion (argument : String) : Bool :=
  argument = "--version" ||
    match argument.toList with
    | '-' :: 'V' :: _ => true
    | _ => false

/-- Whether the first argument asks for help, and for long help. -/
def asksHelp? (argument : String) : Option Bool :=
  if argument = "--help" then some true
  else
    match argument.toList with
    | '-' :: 'h' :: _ => some false
    | _ => none

/-- What the command line asks for, if it is used rightly. -/
def invocation? (env : Environment) : List String → Option Invocation
  | [] => none
  | command :: arguments =>
    if asksVersion command then some .version
    else
      match asksHelp? command with
      | some isLong => some (.help .program isLong)
      | none =>
        if command = "wrap" then wrapInvocation? env arguments
        else if command = "scan" then scanInvocation? env arguments
        else if command = "help" then helpInvocation? arguments
        else none

end FencedCode.Command
