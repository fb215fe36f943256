import FencedCode.Command.Run

/-!
# What a command needs to see

A run can only see its `World`, so whoever builds one has to know which places, variables
and inputs matter.  The places are those on the way to the files that the command line names
and the places where settings are looked for; the variables are those that the program knows
and those that the settings refer to.
-/

namespace FencedCode

namespace Files

/-- The places that are passed on the way along a row of segments, the last one included. -/
def placesAlong (place : List String) : List String → List (List String)
  | [] => [place]
  | segment :: rest => place :: placesAlong (next place segment) rest

/-- The places that are passed on the way to a path. -/
def placesOn (cwd : List String) (path : String) : List (List String) :=
  placesAlong (FileTree.start cwd path) (segments path)

end Files

namespace Settings

/-- The places where a settings file is looked for, if none is named. -/
def candidates (cwd : List String) : List (List String) :=
  (List.range (cwd.length + 1)).map fun count => placeIn (cwd.take count)

/-- The texts in settings that are expanded. -/
def texts (s : Settings) : List String :=
  [s.target.language, s.target.blockTag, s.target.codeTag, s.wrapper.tag,
    s.wrapper.markerClass, s.wrapper.rawCodeAttribute] ++ s.downstream

/-- The names of the variables that settings refer to. -/
def references (s : Settings) : List String :=
  s.texts.flatMap Template.references

end Settings

namespace Command

/-- The path of the input. -/
def Invocation.input? : Invocation → Option String
  | wrap a => a.input
  | scan a => a.input
  | _ => none

/-- The path of the settings file. -/
def Invocation.settings? : Invocation → Option String
  | wrap a => a.settings
  | scan a => a.settings
  | _ => none

/-- The path of the output. -/
def Invocation.output? : Invocation → Option String
  | wrap a => a.output
  | _ => none

/-- The places whose content can matter: those on the way to the input and to the settings
file. -/
def Invocation.sources (cwd : List String) (i : Invocation) : List (List String) :=
  (i.input?.toList.filter fun path => path ≠ "-").flatMap (Files.placesOn cwd) ++
    match i.settings? with
    | some path => Files.placesOn cwd path
    | none => Settings.candidates cwd

/-- The places of which only matters what kind of thing is there and what a run may do with it:
those on the way to the working directory and to the output. -/
def Invocation.passages (cwd : List String) (i : Invocation) : List (List String) :=
  Files.placesAlong [] cwd ++
    (i.output?.toList.filter fun path => path ≠ "-").flatMap (Files.placesOn cwd)

/-- The variables that the program itself knows. -/
def knownVariables : List String :=
  languageVariable :: selectionVariable :: colourVariables

/-- The variables that the settings files among some files refer to. -/
def referredVariables (files : FileTree) : List String :=
  files.items.flatMap fun item =>
    match item.entry with
    | .directory => []
    | .file content =>
      match (String.fromUTF8? content).bind Settings.ofText? with
      | some s => s.references
      | none => []

/-- Whether a command gets as far as its standard input. -/
def needsInput (w : World) (i : Invocation) : Bool :=
  let loads (path language markerClass : Option String) : Bool :=
    (loadSettings w path language markerClass).result.toOption.isSome
  match i with
  | .wrap a => isStandard a.input && loads a.settings a.language a.markerClass
  | .scan a => isStandard a.input && loads a.settings a.language none
  | _ => false

end Command

end FencedCode
