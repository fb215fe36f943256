import FencedCode.Settings.Basic
import FencedCode.Toml.Reader

/-!
# Settings from TOML

A settings file has up to three tables, `target`, `wrapper` and `pipeline`.  What a file
leaves out keeps its default, and unknown keys are ignored.  An array in the place of a table
gives the values of its keys in order.
-/

namespace FencedCode

namespace Toml

mutual

/-- Whether a value that is passed over can be read: whether all its numbers have a
value. -/
def Value.isReadable : Value → Bool
  | .unreadable => false
  | .array items => allReadable items
  | .tables items => allReadable items
  | .table _ entries => allEntriesReadable entries
  | _ => true

/-- Whether several values can be read. -/
def Value.allReadable : List Value → Bool
  | [] => true
  | v :: rest => v.isReadable && allReadable rest

/-- Whether the values of several entries can be read. -/
def Value.allEntriesReadable : List (String × Value) → Bool
  | [] => true
  | (_, v) :: rest => v.isReadable && allEntriesReadable rest

end

/-- The string that a value is. -/
def Value.string? : Value → Option String
  | .string s => some s
  | _ => none

/-- The strings that a value lists. -/
def Value.strings? : Value → Option (List String)
  | .array items => items.mapM Value.string?
  | .tables items => items.mapM Value.string?
  | _ => none

/-- What a table, or an array in its place, gives for keys in order, given that the keys
come in this order in an array.  Other keys are ignored if their values can be read.  A date
or a time counts as a table without any of the keys. -/
def Value.fields? (keys : List String) : Value → Option (List (Option Value))
  | .table _ entries =>
    if entries.all fun (key, v) => keys.contains key || v.isReadable then
      some (keys.map fun key => Table.valueIn key entries)
    else
      none
  | .array items => some ((List.range keys.length).map fun i => items[i]?)
  | .tables items => some ((List.range keys.length).map fun i => items[i]?)
  | .datetime _ => some (keys.map fun _ => none)
  | _ => none

end Toml

namespace Settings

open Toml (Value)

/-- The value of a field, or its default if it is left out. -/
def fieldOr {α : Type} (default : α) (read : Value → Option α) : Option Value → Option α
  | none => some default
  | some v => read v

/-- The blocks that a value describes. -/
def targetOf (v : Value) : Option BlockSettings := do
  let usual : BlockSettings := {}
  match ← v.fields? ["language", "block_tag", "code_tag"] with
  | [language, blockTag, codeTag] =>
    return {
      language := ← fieldOr usual.language Value.string? language
      blockTag := ← fieldOr usual.blockTag Value.string? blockTag
      codeTag := ← fieldOr usual.codeTag Value.string? codeTag }
  | _ => none

/-- The wrappers that a value describes. -/
def wrapperOf (v : Value) : Option WrapperSettings := do
  let usual : WrapperSettings := {}
  match ← v.fields? ["tag", "class", "raw_code_attribute"] with
  | [tag, markerClass, rawCodeAttribute] =>
    return {
      tag := ← fieldOr usual.tag Value.string? tag
      markerClass := ← fieldOr usual.markerClass Value.string? markerClass
      rawCodeAttribute := ← fieldOr usual.rawCodeAttribute Value.string? rawCodeAttribute }
  | _ => none

/-- The stages that come later, as a value describes them. -/
def downstreamOf (v : Value) : Option (List String) := do
  let usual : Settings := {}
  match ← v.fields? ["downstream"] with
  | [downstream] => fieldOr usual.downstream Value.strings? downstream
  | _ => none

/-- The settings that a document describes. -/
def ofToml (v : Value) : Option Settings := do
  let usual : Settings := {}
  match ← v.fields? ["target", "wrapper", "pipeline"] with
  | [target, wrapper, pipeline] =>
    return {
      target := ← fieldOr usual.target targetOf target
      wrapper := ← fieldOr usual.wrapper wrapperOf wrapper
      downstream := ← fieldOr usual.downstream downstreamOf pipeline }
  | _ => none

/-- The settings that the text of a file describes, before any expansion. -/
def ofText? (text : String) : Option Settings := do
  ofToml (← Toml.read? text).value

end Settings

end FencedCode
