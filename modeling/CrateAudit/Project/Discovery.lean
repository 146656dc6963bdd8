/-
This file finds the files that an audit looks at: Rust sources and manifests, below a
directory but not in directories that are excluded or whose name starts with a dot.
-/

import CrateAudit.Project.Disk
import CrateAudit.Source

namespace CrateAudit.Project

/-- Whether a file below a directory is looked at. -/
def isSourceName (name : String) : Bool :=
  ".rs".toList.isSuffixOf name.toList || name == Source.manifestName

/-- Whether a file that is asked for by itself is looked at. A name that is an ending only does
not count. -/
def isSourceFile (name : String) : Bool :=
  (".rs".toList.isSuffixOf name.toList && 3 < name.length) || name == Source.manifestName

/-- Whether a directory is passed over. -/
def isPruned (excluded : List String) (name : String) : Bool :=
  excluded.contains name || ".".toList.isPrefixOf name.toList

mutual

/-- The places of the files to look at in a tree with a name. -/
def sourcesIn (excluded : List String) (name : String) : Tree → List (List String)
  | .file _ => if isSourceName name then [[name]] else []
  | .directory entries =>
    if isPruned excluded name then [] else (sourcesBelow excluded entries).map (name :: ·)

/-- The places of the files to look at below the entries of a directory. -/
def sourcesBelow (excluded : List String) : List (String × Tree) → List (List String)
  | [] => []
  | (name, tree) :: rest => sourcesIn excluded name tree ++ sourcesBelow excluded rest

end

/-- Paths in the order of their texts. -/
def sortPaths (paths : List Path) : List Path :=
  paths.mergeSort fun first second => first.text ≤ second.text

/-- The files to look at: those below a directory, or the one that the path leads to. -/
def discover (disk : Disk) (path : Path) (excluded : List String) : List Path :=
  let root := disk.resolve path
  match disk.lookup root with
  | .ok (.directory entries) =>
    sortPaths <| (sourcesBelow excluded entries).map fun names => ⟨root.start, root.names ++ names⟩
  | .ok (.file _) => if isSourceFile root.name then [root] else []
  | .error _ => []

end CrateAudit.Project
