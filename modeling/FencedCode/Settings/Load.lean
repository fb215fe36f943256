import FencedCode.Settings.Decode
import FencedCode.Template.Expand

/-!
# Loading settings

The settings of a run come from a file, which is named or else looked for in the working
directory and the directories above it.  References to the environment in the file are
expanded, then the command line has its say, and what comes out is validated.  Without a
file the usual settings hold.
-/

namespace FencedCode

/-- Settings given on the command line. -/
structure Overrides where
  /-- The language instead of the one in the file. -/
  language : Option String := none
  /-- The class of wrappers instead of the one in the file. -/
  markerClass : Option String := none

/-- Why settings cannot be loaded. -/
inductive SettingsError where
  /-- The file that is named does not exist. -/
  | notFound (path : String)
  /-- The file cannot be read. -/
  | unreadable (cause : IoError)
  /-- The file does not describe settings. -/
  | malformed
  /-- A variable without a default is not set. -/
  | unset (key : SettingsKey) (name : String)
  /-- The settings have a fault. -/
  | invalid (fault : SettingsFault)

/-- The words for settings that cannot be loaded.  What is wrong with the text of a file is
not told. -/
def SettingsError.message : SettingsError → String
  | notFound path => "Configuration file not found: " ++ path
  | unreadable cause => "I/O error: " ++ cause.message
  | malformed => "TOML parse error: "
  | unset key name =>
    "Environment variable error in " ++ key.text ++ ": $\x7b" ++ name ++ "\x7d not set"
  | invalid fault => "Configuration error: " ++ fault.message

namespace Settings

/-! ## Expansion -/

/-- Expands one setting. -/
def expandAt (env : Environment) (key : SettingsKey) (text : String) :
    Except SettingsError String :=
  (Template.expand env text).mapError (.unset key)

/-- Expands the entries of a list, the first of which has a given index. -/
def expandEntries (env : Environment) : Nat → List String → Except SettingsError (List String)
  | _, [] => .ok []
  | index, text :: rest => do
    let text ← expandAt env (.downstreamEntry index) text
    return text :: (← expandEntries env (index + 1) rest)

/-- Expands all settings; the first variable that is missing counts. -/
def expand (env : Environment) (s : Settings) : Except SettingsError Settings := do
  let language ← expandAt env .language s.target.language
  let blockTag ← expandAt env .blockTag s.target.blockTag
  let codeTag ← expandAt env .codeTag s.target.codeTag
  let tag ← expandAt env .wrapperTag s.wrapper.tag
  let markerClass ← expandAt env .wrapperClass s.wrapper.markerClass
  let rawCodeAttribute ← expandAt env .rawCodeAttribute s.wrapper.rawCodeAttribute
  let downstream ← expandEntries env 0 s.downstream
  return {
    target := { language, blockTag, codeTag }
    wrapper := { tag, markerClass, rawCodeAttribute }
    downstream
    path := s.path }

/-! ## Overrides -/

/-- Puts the settings of the command line in place of others. -/
def override (s : Settings) (o : Overrides) : Settings :=
  { s with
    target := { s.target with language := o.language.getD s.target.language }
    wrapper := { s.wrapper with markerClass := o.markerClass.getD s.wrapper.markerClass } }

/-! ## Files -/

/-- The name of the file that is looked for. -/
def fileName : String :=
  "prewrap.toml"

/-- The place of the settings file in a directory. -/
def placeIn (directory : List String) : List String :=
  directory ++ [fileName]

/-- The path of a place. -/
def pathOf (place : List String) : String :=
  "/" ++ "/".intercalate place

/-- The path of the settings file that is chosen: the lowest one that leads somewhere, of those
in the directory to which the first `count` names of a place lead and in the directories above
it. -/
def discoverAbove (tree : FileTree) (cwd : List String) : Nat → Option String
  | 0 =>
    let path := pathOf (placeIn [])
    if tree.pathExists cwd path then some path else none
  | count + 1 =>
    let path := pathOf (placeIn (cwd.take (count + 1)))
    if tree.pathExists cwd path then some path else discoverAbove tree cwd count

/-- The path of the settings file nearest to the working directory. -/
def discover (tree : FileTree) (cwd : List String) : Option String :=
  discoverAbove tree cwd cwd.length

/-- The settings that the content of a file describes, with references expanded. -/
def ofContent (env : Environment) (path : String) (content : Except IoError String) :
    Except SettingsError Settings := do
  let text ← content.mapError .unreadable
  match ofText? text with
  | none => .error .malformed
  | some s => do
    let s ← s.expand env
    return { s with path := some path }

/-- The settings of the file that is named or found, or the usual ones. -/
def fromFile (tree : FileTree) (cwd : List String) (env : Environment)
    (path : Option String) : Except SettingsError Settings :=
  match path with
  | some path =>
    if tree.pathExists cwd path then ofContent env path (tree.readText cwd path)
    else .error (.notFound path)
  | none =>
    match discover tree cwd with
    | some path => ofContent env path (tree.readText cwd path)
    | none => .ok {}

/-- Loads the settings of a run. -/
def load (tree : FileTree) (cwd : List String) (env : Environment) (path : Option String)
    (overrides : Overrides) : Except SettingsError Settings := do
  let s := (← fromFile tree cwd env path).override overrides
  s.validate.mapError .invalid
  return s

end Settings

end FencedCode
