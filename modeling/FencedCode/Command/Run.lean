import FencedCode.Command.Arguments
import FencedCode.Command.Listing
import FencedCode.Command.Selection
import FencedCode.Command.Style
import FencedCode.Markup.Html
import FencedCode.Pipeline.Basic
import FencedCode.Settings.Load
import FencedCode.Tree.Decode
import FencedCode.Tree.Encode

/-!
# Running a command

A command works on a `World`: the files, the working directory, the environment, the standard
input, and how it can talk to the user.  What it leaves behind is an `Effect`: an exit status, the text on the
standard output, the lines on the standard error, and the files afterwards.  Nothing is
written before the whole document is ready, so a command that fails earlier leaves all files
as they were.
-/

namespace FencedCode.Command

/-- What a command can see. -/
structure World where
  /-- All files and directories. -/
  files : FileTree
  /-- The working directory. -/
  cwd : List String
  /-- The environment. -/
  env : Environment
  /-- The standard input. -/
  input : ByteArray
  /-- The standard output is a terminal. -/
  isTerminal : Bool := false
  /-- The text of short and of long help. -/
  manual : HelpTopic → Bool → String := fun _ _ => ""

/-- A line on the standard error. -/
inductive Line where
  /-- An event. -/
  | event (e : Event)
  /-- A message to the user. -/
  | message (text : String)
  deriving DecidableEq

/-- What a command leaves behind. -/
structure Effect where
  /-- The exit status. -/
  exit : Nat
  /-- The text on the standard output. -/
  output : String
  /-- The lines on the standard error. -/
  lines : List Line
  /-- The files afterwards. -/
  files : FileTree

/-- Why a command fails. -/
inductive CommandError where
  | settings (cause : SettingsError)
  | io (cause : IoError)
  | document (cause : DocumentError)
  | pipeline (cause : PipelineError)

/-- The words for a command that fails. -/
def CommandError.message : CommandError → String
  | settings cause => cause.message
  | io cause => cause.message
  | document cause => "invalid document: " ++ cause.message
  | pipeline cause => cause.message

/-! ## Input and output -/

/-- Whether a path stands for the standard input or output. -/
def isStandard (path : Option String) : Bool :=
  path.getD "-" = "-"

/-- The text of the input. -/
def readInput (w : World) (path : Option String) : Except IoError String :=
  if isStandard path then textOfBytes w.input else w.files.readText w.cwd (path.getD "-")

/-- Writes a text and a line end: the text on the standard output, and the files
afterwards. -/
def writeOutput (w : World) (path : Option String) (text : String) :
    FileTree × Except IoError String :=
  if isStandard path then
    (w.files, .ok (text ++ "\n"))
  else
    match w.files.writeBelow w.cwd (path.getD "-") (text ++ "\n").toUTF8 with
    | (files, .ok ()) => (files, .ok "")
    | (files, .error e) => (files, .error e)

/-! ## Messages -/

/-- What is said if there is no block. -/
def noneMessage (languageClass : String) : String :=
  "No " ++ languageClass ++ " code blocks found"

/-- How it looks what is said about the number of wrapped blocks. -/
def wrappedStyle (count : Nat) : Style :=
  if count = 0 then .plain else .green

/-- What is said about the number of wrapped blocks. -/
def wrappedMessage (count : Nat) (languageClass : String) : String :=
  match count with
  | 0 => noneMessage languageClass
  | 1 => "Wrapped 1 " ++ languageClass ++ " code block"
  | n => "Wrapped " ++ toString n ++ " " ++ languageClass ++ " code blocks"

/-- Whether messages are shown in their colours. -/
def World.colours (w : World) : Bool :=
  showsColours w.env w.isTerminal

/-- A message in a style. -/
def World.say (w : World) (style : Style) (text : String) : Line :=
  .message (style.paint w.colours text)

/-- What is said about a failure. -/
def errorMessage (e : CommandError) : String :=
  "Error: " ++ e.message

/-- What a command leaves behind that fails. -/
def failure (w : World) (files : FileTree) (events : List Event) (e : CommandError) :
    Effect where
  exit := 1
  output := ""
  lines := events.map .event ++ [w.say .red (errorMessage e)]
  files := files

/-! ## The command that wraps -/

/-- The text of a document in a form. -/
def renderDocument (format : Format) (pretty : Bool) (r : Root) : String :=
  match format with
  | .json => r.toJsonText (if pretty then .pretty else .compact)
  | .html => r.toHtml

/-- Loads the settings of a run. -/
def loadSettings (w : World) (path language markerClass : Option String) :
    Logged CommandError Settings :=
  Logged.ofExcept ((Settings.load w.files w.cwd w.env path ⟨language, markerClass⟩).mapError
    .settings)

/-- The document of the input. -/
def readDocument (w : World) (path : Option String) : Logged CommandError Root := do
  let text ← Logged.ofExcept ((readInput w path).mapError .io)
  (Root.ofJsonText text).mapError .document

/-- A document that is ready to be written. -/
structure Wrapped where
  /-- The settings that were used. -/
  settings : Settings
  /-- The text of the document. -/
  text : String
  /-- The number of wrapped blocks. -/
  count : Nat

/-- Everything that the command does before it writes. -/
def prepareWrapped (w : World) (a : WrapArguments) : Logged CommandError Wrapped := do
  let settings ← loadSettings w a.settings a.language a.markerClass
  Logged.report (settings.path.toList.map .settingsLoaded)
  let pipeline ← Logged.ofExcept
    ((Pipeline.empty.push settings.blockWrapper.stage).mapError .pipeline)
  let root ← readDocument w a.input
  let run := pipeline.run root
  Logged.report run.events
  let reports ← Logged.ofExcept (run.outcome.mapError .pipeline)
  return {
    settings
    text := renderDocument a.format a.pretty run.root
    count := StageReport.total reports }

/-- Runs the command that wraps. -/
def runWrap (w : World) (a : WrapArguments) : Effect :=
  let prepared := prepareWrapped w a
  match prepared.result with
  | .error e => failure w w.files prepared.events e
  | .ok wrapped =>
    match writeOutput w a.output wrapped.text with
    | (files, .error e) => failure w files prepared.events (.io e)
    | (files, .ok output) =>
      { exit := 0
        output
        lines := prepared.events.map .event ++
          [w.say (wrappedStyle wrapped.count)
            (wrappedMessage wrapped.count wrapped.settings.languageClass)]
        files }

/-! ## The command that only looks -/

/-- The settings and the blocks that are found. -/
def findBlocks (w : World) (a : ScanArguments) :
    Logged CommandError (Settings × List FoundBlock) := do
  let settings ← loadSettings w a.settings a.language none
  let root ← readDocument w a.input
  Logged.report (settings.targetBlock.findEvents root)
  return (settings, settings.blockWrapper.find root)

/-- Runs the command that only looks. -/
def runScan (w : World) (a : ScanArguments) : Effect :=
  let found := findBlocks w a
  match found.result with
  | .error e => failure w w.files found.events e
  | .ok (settings, blocks) =>
    { exit := 0
      output := if blocks.isEmpty then "" else listing blocks ++ "\n"
      lines := found.events.map .event ++
        if blocks.isEmpty then [w.say .yellow (noneMessage settings.languageClass)] else []
      files := w.files }

/-! ## Both -/

/-- The name and the version of the program. -/
def versionLine : String :=
  "prewrap 0.1.0"

/-- The variable that selects events. -/
def selectionVariable : String :=
  "RUST_LOG"

/-- The events that a run shows, and what it says about the selection. -/
def selectionOf (w : World) (verbose : Bool) : Selection × List String :=
  if verbose then (.verbose, []) else Selection.ofText ((w.env.lookup selectionVariable).getD "")

/-- Leaves only the selected events on the standard error. -/
def shown (w : World) (verbose : Bool) (effect : Effect) : Effect :=
  let (selection, remarks) := selectionOf w verbose
  { effect with
    lines := remarks.map .message ++ effect.lines.filter fun
      | .event e => selection.shows e
      | .message _ => true }

/-- Runs what the command line asks for.  Help and the version are not written by a command, and
a misuse leaves nothing but an exit status. -/
def run (w : World) (arguments : List String) : Effect :=
  match invocation? w.env arguments with
  | none => ⟨2, "", [], w.files⟩
  | some .version => ⟨0, versionLine ++ "\n", [], w.files⟩
  | some (.help topic isLong) => ⟨0, w.manual topic isLong, [], w.files⟩
  | some (.wrap a) => shown w a.verbose (runWrap w a)
  | some (.scan a) => shown w a.verbose (runScan w a)

end FencedCode.Command
