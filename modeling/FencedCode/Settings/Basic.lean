import FencedCode.Block.Wrapper
import FencedCode.Files.Tree
import FencedCode.Text.Blank

/-!
# Settings

The settings say which language is wrapped, how its blocks look, how wrappers look and which
stages come later.  They are valid if every name is non-empty and free of blanks and the
source attribute is not the class of the wrapper.
-/

namespace FencedCode

/-- The blocks that are wrapped. -/
structure BlockSettings where
  /-- The language of the code. -/
  language : String := "mermaid"
  /-- The tag of a block. -/
  blockTag : String := "pre"
  /-- The tag of its code. -/
  codeTag : String := "code"
  deriving DecidableEq

/-- The wrappers. -/
structure WrapperSettings where
  /-- The tag of a wrapper. -/
  tag : String := "div"
  /-- The class of a wrapper. -/
  markerClass : String := "mermaid-wrapper"
  /-- The property that holds the source. -/
  rawCodeAttribute : String := "data-mermaid-code"
  deriving DecidableEq

/-- The settings of a run. -/
structure Settings where
  /-- The blocks that are wrapped. -/
  target : BlockSettings := {}
  /-- The wrappers. -/
  wrapper : WrapperSettings := {}
  /-- The names of the stages that come later. -/
  downstream : List String := ["rehype-mermaid"]
  /-- The path of the file that the settings come from. -/
  path : Option String := none
  deriving DecidableEq

/-- The places of the settings that hold names. -/
inductive SettingsKey where
  | language
  | blockTag
  | codeTag
  | wrapperTag
  | wrapperClass
  | rawCodeAttribute
  /-- The list of stages that come later. -/
  | downstream
  /-- One entry of that list. -/
  | downstreamEntry (index : Nat)
  deriving DecidableEq

/-- How messages name a place of the settings. -/
def SettingsKey.text : SettingsKey → String
  | language => "target.language"
  | blockTag => "target.block_tag"
  | codeTag => "target.code_tag"
  | wrapperTag => "wrapper.tag"
  | wrapperClass => "wrapper.class"
  | rawCodeAttribute => "wrapper.raw_code_attribute"
  | downstream => "pipeline.downstream"
  | downstreamEntry index => "pipeline.downstream[" ++ toString index ++ "]"

/-- What can be wrong with the settings. -/
inductive SettingsFault where
  /-- A name is empty. -/
  | emptyName (key : SettingsKey)
  /-- A name has a blank in it. -/
  | blankInName (key : SettingsKey)
  /-- The source would take the place of the class. -/
  | classAttribute
  deriving DecidableEq

/-- The words for a fault of the settings. -/
def SettingsFault.message : SettingsFault → String
  | emptyName key => key.text ++ " cannot be empty"
  | blankInName key => key.text ++ " cannot contain whitespace"
  | classAttribute =>
    SettingsKey.rawCodeAttribute.text ++ " cannot be the class attribute"

namespace Settings

/-- Checks that a name is non-empty and free of blanks. -/
def checkName (name : String) (key : SettingsKey) : Except SettingsFault Unit :=
  if name.isEmpty then .error (.emptyName key)
  else if name.toList.any Text.isBlank then .error (.blankInName key)
  else .ok ()

/-- Checks that all entries of a list are names. -/
def checkNames (key : SettingsKey) : List String → Except SettingsFault Unit
  | [] => .ok ()
  | name :: rest => do
    checkName name key
    checkNames key rest

/-- Checks that the source attribute is not the class. -/
def checkAttribute (name : String) : Except SettingsFault Unit :=
  if name = "class" ∨ name = "className" then .error .classAttribute else .ok ()

/-- Checks the settings; the first fault counts. -/
def validate (s : Settings) : Except SettingsFault Unit := do
  checkName s.target.language .language
  checkName s.target.blockTag .blockTag
  checkName s.target.codeTag .codeTag
  checkName s.wrapper.tag .wrapperTag
  checkName s.wrapper.markerClass .wrapperClass
  checkName s.wrapper.rawCodeAttribute .rawCodeAttribute
  checkAttribute s.wrapper.rawCodeAttribute
  checkNames .downstream s.downstream

/-- The class that marks the code of the language. -/
def languageClass (s : Settings) : String :=
  TargetBlock.languageClassOf s.target.language

/-- The blocks and wrappers that the settings describe. -/
def targetBlock (s : Settings) : TargetBlock where
  blockTag := s.target.blockTag
  codeTag := s.target.codeTag
  languageClass := s.languageClass
  wrapperTag := s.wrapper.tag
  markerClass := s.wrapper.markerClass
  rawCodeAttribute := s.wrapper.rawCodeAttribute

/-- The wrapping stage that the settings describe. -/
def blockWrapper (s : Settings) : BlockWrapper where
  target := s.targetBlock
  runsBefore := s.downstream

end Settings

end FencedCode
