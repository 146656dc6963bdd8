/-
This file holds a file that has been read: its path, its text and its lines. A
manifest is told by its name alone, whichever way the path separates its parts.
-/

import CrateAudit.Text.Lines
import CrateAudit.Text.Search

namespace CrateAudit

/-- A file and its text. -/
structure Source where
  path : String
  content : List Char
  lines : List Line
  deriving DecidableEq, Repr

namespace Source

/-- The source with a text, cut into lines. -/
def ofText (path : String) (content : List Char) : Source :=
  ⟨path, content, Text.lines content⟩

/-- The path with every backslash turned into a slash. -/
def withSlashes (path : String) : List Char :=
  path.toList.map fun character => if character = '\\' then '/' else character

/-- The name of a manifest. -/
def manifestName : String := "Cargo.toml"

def isManifest (source : Source) : Bool :=
  Text.afterLast '/' (withSlashes source.path) == manifestName.toList

theorem lines_ofText (path : String) (content : List Char) :
    (ofText path content).lines = Text.lines content := rfl

end Source

end CrateAudit
