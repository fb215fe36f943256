import FencedCode.Files.Path

/-!
# File trees

A run sees one tree of directories and files.  A place in it is the row of names that leads
there from the top.  There are no links, so a path is simply followed name by name, and two
dots lead back up; above the top there is only the top.

What stands at a place may be closed to the run in three ways: it cannot be read, it cannot be
written, or, for a directory, no path leads through it.
-/

namespace FencedCode

/-- Why a file or directory cannot be read or written. -/
inductive IoError where
  | notFound
  | permissionDenied
  | alreadyExists
  | notADirectory
  | isADirectory
  | nameTooLong
  /-- A name holds a character that no name can hold. -/
  | nulInName
  | invalidUtf8
  deriving DecidableEq

/-- The words for an error of files. -/
def IoError.message : IoError → String
  | notFound => "No such file or directory (os error 2)"
  | permissionDenied => "Permission denied (os error 13)"
  | alreadyExists => "File exists (os error 17)"
  | notADirectory => "Not a directory (os error 20)"
  | isADirectory => "Is a directory (os error 21)"
  | nameTooLong => "File name too long (os error 36)"
  | nulInName => "file name contained an unexpected NUL byte"
  | invalidUtf8 => "stream did not contain valid UTF-8"

/-- The bytes of a text file as text. -/
def textOfBytes (bytes : ByteArray) : Except IoError String :=
  match String.fromUTF8? bytes with
  | some s => .ok s
  | none => .error .invalidUtf8

namespace Files

/-- What stands at a place. -/
inductive Entry where
  | directory
  | file (content : ByteArray)

/-- Files are compared by their bytes. -/
instance : DecidableEq Entry
  | .directory, .directory => isTrue rfl
  | .directory, .file _ => isFalse nofun
  | .file _, .directory => isFalse nofun
  | .file a, .file b =>
    match ByteArray.instDecidableEq a b with
    | isTrue h => isTrue (h ▸ rfl)
    | isFalse h => isFalse fun e => h (Entry.file.inj e)

/-- What a run may do with something. -/
structure Access where
  /-- The content of a file or the names in a directory can be read. -/
  read : Bool := true
  /-- The content of a file can be replaced, or things can be put into a directory. -/
  write : Bool := true
  /-- A path can lead through a directory. -/
  search : Bool := true
  deriving DecidableEq

/-- Something that stands at a place. -/
structure Item where
  /-- The place. -/
  place : List String
  /-- What stands there. -/
  entry : Entry
  /-- What a run may do with it. -/
  access : Access := {}

/-- The place that a segment leads to. -/
def next (place : List String) (segment : String) : List String :=
  if segment = "" ∨ segment = "." then place
  else if segment = ".." then place.dropLast
  else place ++ [segment]

end Files

/-- All files and directories. -/
structure FileTree where
  /-- What stands at the places below the top.  An item for the top itself says what a run may
  do there. -/
  items : List Files.Item

namespace FileTree

open Files

/-- What is known of a place. -/
def itemAt (tree : FileTree) (place : List String) : Option Item :=
  tree.items.find? fun item => item.place = place

/-- What stands at a place. -/
def lookup (tree : FileTree) (place : List String) : Option Entry :=
  if place.isEmpty then some .directory else (tree.itemAt place).map Item.entry

/-- What a run may do at a place. -/
def accessAt (tree : FileTree) (place : List String) : Access :=
  ((tree.itemAt place).map Item.access).getD {}

/-- Puts something at a place, instead of what stands there.  What a run may do there stays. -/
def setIn (place : List String) (entry : Entry) : List Item → List Item
  | [] => [{ place, entry }]
  | item :: rest =>
    if item.place = place then { item with entry } :: rest else item :: setIn place entry rest

/-- Puts something at a place, instead of what stands there. -/
def set (tree : FileTree) (place : List String) (entry : Entry) : FileTree :=
  ⟨setIn place entry tree.items⟩

/-- Adds the directories on the way to a place, and the place itself as a directory. -/
def addDirectories (tree : FileTree) (place : List String) : FileTree :=
  (List.range place.length).foldl
    (fun tree n =>
      let here := place.take (n + 1)
      if (tree.lookup here).isSome then tree else tree.set here .directory)
    tree

/-- Adds something at a place, and the directories on the way. -/
def add (tree : FileTree) (place : List String) (entry : Entry) : FileTree :=
  (tree.addDirectories place.dropLast).set place entry

/-! ## Following a path -/

/-- Why nothing can have a path, if nothing can. -/
def pathFault? (path : String) : Option IoError :=
  if holdsNul path then some .nulInName
  else if isTooLong path then some .nameTooLong
  else none

/-- Follows segments from a place.  Every place on the way has to be a directory that a path
can lead through, and the last one has to exist.  An empty segment leads nowhere else. -/
def walk (tree : FileTree) (place : List String) :
    List String → Except IoError (List String)
  | [] => if (tree.lookup place).isSome then .ok place else .error .notFound
  | segment :: rest =>
    match tree.lookup place with
    | none => .error .notFound
    | some (.file _) => .error .notADirectory
    | some .directory =>
      if segment ≠ "" ∧ (tree.accessAt place).search = false then .error .permissionDenied
      else if segment.utf8ByteSize > 255 then .error .nameTooLong
      else walk tree (next place segment) rest

/-- Where following a path starts. -/
def start (cwd : List String) (path : String) : List String :=
  if isAbsolute path then [] else cwd

/-- The place of something that exists. -/
def resolve (tree : FileTree) (cwd : List String) (path : String) :
    Except IoError (List String) :=
  if path.isEmpty then .error .notFound
  else
    match pathFault? path with
    | some e => .error e
    | none => tree.walk (start cwd path) (segments path)

/-- Whether something exists at a path. -/
def pathExists (tree : FileTree) (cwd : List String) (path : String) : Bool :=
  (tree.resolve cwd path).toOption.isSome

/-- The bytes of what stands at a place. -/
def contentAt (tree : FileTree) (place : List String) : Except IoError ByteArray :=
  match tree.lookup place with
  | none => .error .notFound
  | some entry =>
    if (tree.accessAt place).read = false then .error .permissionDenied
    else
      match entry with
      | .directory => .error .isADirectory
      | .file content => .ok content

/-- The text of what stands at a place. -/
def textAt (tree : FileTree) (place : List String) : Except IoError String := do
  textOfBytes (← tree.contentAt place)

/-- The text of a file. -/
def readText (tree : FileTree) (cwd : List String) (path : String) : Except IoError String := do
  tree.textAt (← tree.resolve cwd path)

/-! ## Making directories -/

/-- Makes the directory that a row of parts leads to, of which all but the last have to
exist. -/
def makeDirectory (tree : FileTree) (place : List String) (way : List String) :
    Except IoError FileTree :=
  if way.any holdsNul then .error .nulInName
  else match way.getLast? with
  | none => .error .alreadyExists
  | some name => do
    let parent ← tree.walk place way.dropLast
    match tree.lookup parent with
    | some .directory =>
      if (tree.accessAt parent).search = false then .error .permissionDenied
      else if name.utf8ByteSize > 255 then .error .nameTooLong
      else if (tree.lookup (next parent name)).isSome then .error .alreadyExists
      else if (tree.accessAt parent).write = false then .error .permissionDenied
      else return tree.set (next parent name) .directory
    | _ => .error .notADirectory

/-- Whether a row of parts leads to a directory. -/
def isDirectory (tree : FileTree) (place : List String) (way : List String) : Bool :=
  match tree.walk place way with
  | .ok place => tree.lookup place = some .directory
  | .error _ => false

/-- Makes the directory that the first `count` parts lead to, with those on the way to it.
The tree is given back even on failure, since some may have been made. -/
def makeDirectories (tree : FileTree) (place : List String) (way : List String) :
    Nat → FileTree × Except IoError Unit
  | 0 => (tree, .ok ())
  | count + 1 =>
    let here := way.take (count + 1)
    match tree.makeDirectory place here with
    | .ok tree => (tree, .ok ())
    | .error .notFound =>
      match makeDirectories tree place way count with
      | (tree, .error e) => (tree, .error e)
      | (tree, .ok ()) =>
        match tree.makeDirectory place here with
        | .ok tree => (tree, .ok ())
        | .error e =>
          if tree.isDirectory place here then (tree, .ok ()) else (tree, .error e)
    | .error e =>
      if tree.isDirectory place here then (tree, .ok ()) else (tree, .error e)

/-! ## Writing -/

/-- The segments of a path without empty ones at the end, and whether there were some. -/
def trimmed (path : String) : List String × Bool :=
  let all := segments path
  let kept := (all.reverse.dropWhile (· = "")).reverse
  (kept, kept.length ≠ all.length)

/-- Whether a file can be created or replaced at a place in a directory. -/
def checkWritable (tree : FileTree) (parent place : List String) : Except IoError Unit :=
  match tree.lookup place with
  | some .directory => .error .isADirectory
  | some (.file _) =>
    if (tree.accessAt place).write then .ok () else .error .permissionDenied
  | none =>
    if (tree.accessAt parent).write then .ok () else .error .permissionDenied

/-- Creates a file with a content, or replaces the content of one. -/
def writeFile (tree : FileTree) (cwd : List String) (path : String) (content : ByteArray) :
    Except IoError FileTree :=
  let (way, closed) := trimmed path
  let place := start cwd path
  match pathFault? path, way.getLast? with
  | some e, _ => .error e
  | none, none => .error (if path.isEmpty then .notFound else .isADirectory)
  | none, some name => do
    let parent ← tree.walk place way.dropLast
    match tree.lookup parent with
    | some .directory =>
      if (tree.accessAt parent).search = false then .error .permissionDenied
      else if closed ∨ name = "." ∨ name = ".." then .error .isADirectory
      else if name.utf8ByteSize > 255 then .error .nameTooLong
      else do
        tree.checkWritable parent (next parent name)
        return tree.set (next parent name) (.file content)
    | _ => .error .notADirectory

/-- Creates or replaces a file after making the directories on the way to it. -/
def writeBelow (tree : FileTree) (cwd : List String) (path : String) (content : ByteArray) :
    FileTree × Except IoError Unit :=
  let way := (parts path).dropLast
  let made : FileTree × Except IoError Unit :=
    match pathFault? (parentOf path) with
    | some e => (tree, .error e)
    | none => tree.makeDirectories (start cwd path) way way.length
  match made with
  | (tree, .error e) => (tree, .error e)
  | (tree, .ok ()) =>
    match tree.writeFile cwd path content with
    | .ok tree => (tree, .ok ())
    | .error e => (tree, .error e)

/-- The files that are not the same in an earlier tree, with their contents. -/
def changesSince (tree earlier : FileTree) : List (List String × ByteArray) :=
  tree.items.filterMap fun item =>
    match item.entry with
    | .directory => none
    | .file content =>
      if earlier.lookup item.place = some item.entry then none else some (item.place, content)

end FileTree

end FencedCode
