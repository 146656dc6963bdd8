/-
This file holds paths: where they start and the names on the way. Repeated slashes and
dots for the same directory vanish when a path is read; two dots for the parent stay,
since they can be followed on a disk only.
-/

import CrateAudit.Text.Search

namespace CrateAudit

/-- Where a path starts: wherever one is, at the root, or at the root of the second kind that
exactly two slashes stand for. -/
inductive PathStart where
  | relative
  | root
  | doubleRoot
  deriving DecidableEq, Repr

/-- A path. -/
structure Path where
  start : PathStart
  names : List String
  deriving DecidableEq, Repr

namespace Path

/-- Splits a text at every slash. -/
def splitSlashes : List Char → List (List Char)
  | [] => [[]]
  | '/' :: rest => [] :: splitSlashes rest
  | character :: rest =>
    match splitSlashes rest with
    | [] => [[character]]
    | name :: names => (character :: name) :: names

/-- Whether a name between slashes counts. -/
def isName (name : List Char) : Bool :=
  !name.isEmpty && name != ['.']

/-- The start that a number of leading slashes stands for. -/
def startOf : Nat → PathStart
  | 0 => .relative
  | 2 => .doubleRoot
  | _ => .root

/-- Reads a path. -/
def ofText (text : String) : Path :=
  let slashes := text.toList.takeWhile (· = '/')
  let rest := text.toList.dropWhile (· = '/')
  ⟨startOf slashes.length, ((splitSlashes rest).filter isName).map String.ofList⟩

/-- The path without any name. -/
def here : Path := ⟨.relative, []⟩

/-- The second path, taken from the first one unless it starts at a root. -/
def append (first second : Path) : Path :=
  match second.start with
  | .relative => ⟨first.start, first.names ++ second.names⟩
  | _ => second

/-- The paths one after another. -/
def join (paths : List Path) : Path :=
  paths.foldl append here

/-- The path with one more name. -/
def child (path : Path) (name : String) : Path :=
  ⟨path.start, path.names ++ [name]⟩

def startText : PathStart → String
  | .relative => ""
  | .root => "/"
  | .doubleRoot => "//"

/-- The path as a text; a dot if it is empty. -/
def text (path : Path) : String :=
  let text := startText path.start ++ "/".intercalate path.names
  if text.isEmpty then "." else text

/-- The last name, empty if there is none. -/
def name (path : Path) : String :=
  path.names.getLast?.getD ""

/-- The path without its last name. -/
def parent (path : Path) : Path :=
  ⟨path.start, path.names.dropLast⟩

/-- The rest of a path below another one. -/
def below? (path root : Path) : Option Path :=
  if path.start = root.start ∧ root.names.isPrefixOf path.names then
    some ⟨.relative, path.names.drop root.names.length⟩
  else none

/-- How a path is shown below a root: the rest of it, or all of it if it lies elsewhere. The root
itself is shown by its name. -/
def shownBelow (path root : Path) : String :=
  if path = root then path.name
  else ((path.below? root).getD path).text

/-- Follows names from a list of names, two dots going one name back. -/
def follow : List String → List String → List String
  | places, [] => places
  | places, name :: rest =>
    if name = ".." then follow places.dropLast rest else follow (places ++ [name]) rest

/-- The path from the root that this path leads to from a directory. Both kinds of root lead to
the same place. -/
def resolve (directory : List String) (path : Path) : Path :=
  match path.start with
  | .relative => ⟨.root, follow directory path.names⟩
  | .root | .doubleRoot => ⟨.root, follow [] path.names⟩

/-- What is appended below a path is found below it again. -/
theorem below?_append (root rest : Path) (relative : rest.start = .relative) :
    (root.append rest).below? root = some rest := by
  obtain ⟨start, names⟩ := rest
  subst relative
  simp [append, below?, List.isPrefixOf_iff_prefix]

/-- Appending the rest of a path below a root gives the path back. -/
theorem append_of_below? {path root rest : Path} (found : path.below? root = some rest) :
    root.append rest = path := by
  unfold below? at found
  split at found
  · rename_i inside
    cases found
    obtain ⟨tail, shape⟩ := List.isPrefixOf_iff_prefix.mp inside.2
    obtain ⟨start, names⟩ := path
    simp only at inside shape ⊢
    subst shape
    simp [append, inside.1]
  · cases found

end Path

end CrateAudit
