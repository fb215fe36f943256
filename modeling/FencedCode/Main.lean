import FencedCode.Command.Needs

/-!
# The program

The program gathers what its command needs to see, runs it, and carries out the effect.
-/

namespace FencedCode.Main

open Command

/-- Reads the rest of a stream. -/
partial def readAll (stream : IO.FS.Stream) (read : ByteArray) : IO ByteArray := do
  let chunk ← stream.read 65536
  if chunk.isEmpty then
    return read
  else
    readAll stream (read ++ chunk)

/-- Whether the system allows an action. -/
def allows {α : Type} (action : IO α) : IO Bool := do
  try
    discard action
    return true
  catch _ => return false

/-- The content of a file, or nothing if it cannot be read. -/
def contentOf? (read : IO ByteArray) : IO (Option ByteArray) := do
  try
    return some (← read)
  catch _ => return none

/-- Adds what stands at a place to the known files, if something stands there.  What can be
done with it is tried out where that changes nothing. -/
def look (withContent : Bool) (files : FileTree) (place : List String) : IO FileTree := do
  if (files.itemAt place).isSome then
    return files
  let path := (← IO.currentDir) / Settings.pathOf place
  if ← path.isDir then
    let access : Files.Access := {
      read := ← allows path.readDir
      search := ← (path / ".").pathExists }
    return ⟨files.items ++ [⟨place, .directory, access⟩]⟩
  else if ← path.pathExists then
    let content? ← if withContent then contentOf? (IO.FS.readBinFile path) else pure none
    let access : Files.Access := {
      read := !withContent || content?.isSome
      write := withContent || (← allows (IO.FS.Handle.mk path .append)) }
    return ⟨files.items ++ [⟨place, .file (content?.getD ByteArray.empty), access⟩]⟩
  else
    return files

/-- The values of variables that are set. -/
def readVariables (names : List String) : IO Environment := do
  let values ← names.mapM fun name => do return (name, ← IO.getEnv name)
  return ⟨values.filterMap fun (name, value) => value.map (name, ·)⟩

/-- What the program says about how it is used. -/
def manual : HelpTopic → Bool → String
  | .program, _ => "Usage: prewrap <wrap | scan | help>\n"
  | .wrap, _ => "Usage: prewrap wrap [OPTIONS] [INPUT]\n"
  | .scan, _ => "Usage: prewrap scan [OPTIONS] [INPUT]\n"
  | .help, _ => "Usage: prewrap help [COMMAND]\n"

/-- A world with some files and variables and no input. -/
def worldWith (files : FileTree) (cwd : List String) (env : Environment) : IO World := do
  return {
    files
    cwd
    env
    input := ByteArray.empty
    isTerminal := ← (← IO.getStdout).isTty
    manual }

/-- The world of an invocation. -/
def worldOf (cwd : List String) (i : Invocation) : IO World := do
  let files ← (i.sources cwd).foldlM (look true) ⟨[]⟩
  let files ← (i.passages cwd).foldlM (look false) files
  let env ← readVariables (knownVariables ++ referredVariables files)
  let world ← worldWith files cwd env
  if needsInput world i then
    return { world with input := ← readAll (← IO.getStdin) ByteArray.empty }
  else
    return world

/-- Makes the directories and writes the files that are new. -/
def writeChanges (files earlier : FileTree) : IO Unit := do
  for item in files.items do
    if item.entry = .directory ∧ (earlier.lookup item.place).isNone then
      IO.FS.createDirAll (Settings.pathOf item.place)
  for (place, content) in files.changesSince earlier do
    IO.FS.writeBinFile (Settings.pathOf place) content

/-- The text of a line on the standard error. -/
def lineText : Line → String
  | .event e => e.line
  | .message text => text

/-- Carries out an effect. -/
def carryOut (effect : Effect) (earlier : FileTree) : IO UInt32 := do
  writeChanges effect.files earlier
  (← IO.getStdout).putStr effect.output
  for line in effect.lines do
    (← IO.getStderr).putStrLn (lineText line)
  return effect.exit.toUInt32

/-- The working directory, as a place. -/
def workingDirectory : IO (List String) := do
  return (Files.segments (← IO.currentDir).toString).filter fun name => name ≠ ""

/-- Runs a command line. -/
def run (arguments : List String) : IO UInt32 := do
  let cwd ← workingDirectory
  let env ← readVariables knownVariables
  match invocation? env arguments with
  | none =>
    let world ← worldWith ⟨[]⟩ cwd env
    carryOut (Command.run world arguments) world.files
  | some i =>
    let world ← worldOf cwd i
    carryOut (Command.run world arguments) world.files

end FencedCode.Main

/-- Runs the program; what the system refuses is told, and ends it. -/
def main (arguments : List String) : IO UInt32 := do
  try
    FencedCode.Main.run arguments
  catch e =>
    (← IO.getStderr).putStrLn ("Error: " ++ toString e)
    return 1
