/-
This file holds a disk: a tree, the directory in which the program runs, the files that
may not be read or written, and what the system will not even look up or open. Every
operation gives either its result or the reason why it fails, and a failed write changes
nothing.
-/

import CrateAudit.Project.Path
import CrateAudit.Project.Tree
import CrateAudit.Text.Encoding
import CrateAudit.Text.Lines
import CrateAudit.Text.Quoted

namespace CrateAudit

/-- A complaint of the operating system: its number and its words. -/
structure SystemFault where
  number : Nat
  words : String
  deriving DecidableEq, Repr

def SystemFault.permissionDenied : SystemFault := ⟨13, "Permission denied"⟩

/-- Why something cannot be done with a file. -/
inductive FileFault where
  | missing (path : Path)
  | notDirectory (path : Path)
  | isDirectory (path : Path)
  | exists_ (path : Path)
  | system (cause : SystemFault) (path : Path)
  | denied
  | readOnly
  deriving DecidableEq, Repr

namespace FileFault

/-- The number and the words of the operating system, and the path. -/
def systemMessage (cause : SystemFault) (path : Path) : String :=
  "[Errno " ++ toString cause.number ++ "] " ++ cause.words ++ ": " ++ Text.quoted path.text

def message : FileFault → String
  | .missing path => systemMessage ⟨2, "No such file or directory"⟩ path
  | .notDirectory path => systemMessage ⟨20, "Not a directory"⟩ path
  | .isDirectory path => systemMessage ⟨21, "Is a directory"⟩ path
  | .exists_ path => systemMessage ⟨17, "File exists"⟩ path
  | .system cause path => systemMessage cause path
  | .denied => "denied"
  | .readOnly => "read-only"

end FileFault

/-- A disk. The sources in `unreadable` cannot be read, for whatever reason. The files in `locked`
cannot be opened as settings, and the system fails to look up a path that is `barred`: its names are
too long, say, or it leads through a directory that may not be entered. -/
structure Disk where
  tree : Tree
  workingDirectory : List String
  unreadable : List (List String)
  unwritable : List (List String)
  locked : List (List String) := []
  barred : Path → Option SystemFault := fun _ => none

namespace Disk

/-- Follows names on the disk. What a name is taken from has to be a directory, and the name has
to exist in it. -/
def walk (tree : Tree) (path : Path) : List String → List String → Except FileFault (List String)
  | place, [] => .ok place
  | place, name :: rest =>
    match tree.get? place with
    | none => .error (.missing path)
    | some (.file _) => .error (.notDirectory path)
    | some (.directory entries) =>
      if name = ".." then walk tree path place.dropLast rest
      else if (entries.lookup name).isSome then walk tree path (place ++ [name]) rest
      else .error (.missing path)

/-- Where a path starts on the disk. -/
def origin (disk : Disk) (path : Path) : List String :=
  match path.start with
  | .relative => disk.workingDirectory
  | _ => []

/-- The place that a path leads to. -/
def locate (disk : Disk) (path : Path) : Except FileFault (List String) :=
  walk disk.tree path (disk.origin path) path.names

/-- What a path leads to. -/
def lookup (disk : Disk) (path : Path) : Except FileFault Tree := do
  let place ← disk.locate path
  match disk.tree.get? place with
  | some tree => return tree
  | none => throw (.missing path)

def pathExists (disk : Disk) (path : Path) : Bool :=
  (disk.lookup path).isOk

def holdsDirectory (disk : Disk) (path : Path) : Bool :=
  match disk.lookup path with
  | .ok tree => tree.isDirectory
  | .error _ => false

def holdsFile (disk : Disk) (path : Path) : Bool :=
  match disk.lookup path with
  | .ok tree => !tree.isDirectory
  | .error _ => false

/-- The path from the root that a path leads to. It need not exist. -/
def resolve (disk : Disk) (path : Path) : Path :=
  path.resolve disk.workingDirectory

/-- The content of a file. -/
def fileBytes (disk : Disk) (path : Path) : Except FileFault Bytes := do
  match ← disk.lookup path with
  | .file bytes => return bytes
  | .directory _ => throw (.isDirectory path)

/-- The content of a file that is opened as settings. -/
def readBytes (disk : Disk) (path : Path) : Except FileFault Bytes :=
  match disk.barred path with
  | some cause => .error (.system cause path)
  | none => do
    let bytes ← disk.fileBytes path
    if disk.locked.contains (disk.resolve path).names then
      throw (.system .permissionDenied path)
    return bytes

/-- The text of a source, with every line break turned into a line feed. -/
def readText (disk : Disk) (path : Path) : Except FileFault (List Char) := do
  if disk.unreadable.contains (disk.resolve path).names then throw .denied
  let bytes ← disk.fileBytes path
  return Text.unifyLineFeeds (Text.decode bytes)

/-! ### Writing -/

/-- Creates the directories on the way along names, and gives the tree and the place reached. -/
def makeDirectories (path : Path) :
    Tree → List String → List String → Except FileFault (Tree × List String)
  | tree, place, [] => .ok (tree, place)
  | tree, place, name :: rest =>
    if name = ".." then makeDirectories path tree place.dropLast rest
    else
      match tree.get? (place ++ [name]) with
      | none =>
        makeDirectories path (Tree.set .empty (place ++ [name]) tree) (place ++ [name]) rest
      | some (.directory _) => makeDirectories path tree (place ++ [name]) rest
      | some (.file _) => .error (if rest.isEmpty then .exists_ path else .notDirectory path)

/-- Puts bytes into a file whose directory exists. -/
def writeAt (disk : Disk) (path : Path) (place : List String) (bytes : Bytes) :
    Except FileFault Disk :=
  match disk.tree.get? place with
  | some (.directory _) => .error (.isDirectory path)
  | _ => .ok { disk with tree := Tree.set (.file bytes) place disk.tree }

/-- Puts a text into a file, creating the directories on the way. -/
def writeText (disk : Disk) (path : Path) (text : List Char) : Except FileFault Disk := do
  if disk.unwritable.contains (disk.resolve path).names then throw .readOnly
  let (tree, place) ← makeDirectories path.parent disk.tree (disk.origin path) path.parent.names
  let target := match path.names.getLast? with
    | none => place
    | some name => if name = ".." then place.dropLast else place ++ [name]
  ({ disk with tree }).writeAt path target (Text.encode text)

end Disk

end CrateAudit
