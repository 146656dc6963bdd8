/-
This file holds a tree of directories and files, and what can be done to it at a place:
look something up, put a file there, take a file away. A place is the list of names
that leads there from the root.
-/

namespace CrateAudit

/-- The content of a file. -/
abbrev Bytes := List UInt8

/-- A file or a directory with its entries. -/
inductive Tree where
  | file (bytes : Bytes)
  | directory (entries : List (String × Tree))

namespace Tree

/-- The tree with nothing in it. -/
def empty : Tree := .directory []

/-- What stands at a place. -/
def get? : Tree → List String → Option Tree
  | tree, [] => some tree
  | .file _, _ :: _ => none
  | .directory entries, name :: rest =>
    match entries.lookup name with
    | none => none
    | some tree => tree.get? rest

/-- Puts an entry into a directory, in the place of an earlier one with its name. -/
def setEntry (name : String) (tree : Tree) : List (String × Tree) → List (String × Tree)
  | [] => [(name, tree)]
  | entry :: rest =>
    if entry.1 == name then (name, tree) :: rest else entry :: setEntry name tree rest

/-- Puts something at a place, creating the directories on the way. A file on the way gives way to
a directory. -/
def set (what : Tree) : List String → Tree → Tree
  | [], _ => what
  | name :: rest, tree =>
    let entries := match tree with
      | .directory entries => entries
      | .file _ => []
    .directory (setEntry name (set what rest ((entries.lookup name).getD empty)) entries)

/-- Takes away what stands at a place. -/
def erase : List String → Tree → Tree
  | [], tree => tree
  | _ :: _, .file bytes => .file bytes
  | [name], .directory entries => .directory (entries.filter fun entry => entry.1 != name)
  | name :: rest, .directory entries =>
    match entries.lookup name with
    | none => .directory entries
    | some tree => .directory (setEntry name (erase rest tree) entries)

/-- Whether this is a directory. -/
def isDirectory : Tree → Bool
  | .file _ => false
  | .directory _ => true

mutual

/-- Every file of a tree with its place. -/
def files : Tree → List (List String × Bytes)
  | .file bytes => [([], bytes)]
  | .directory entries => filesOf entries

/-- Every file of the entries of a directory with its place. -/
def filesOf : List (String × Tree) → List (List String × Bytes)
  | [] => []
  | (name, tree) :: rest =>
    (files tree).map (fun found => (name :: found.1, found.2)) ++ filesOf rest

end

end Tree

end CrateAudit
