/-
This file scans a manifest line by line: the edition it asks for, and the crates it
depends on.
-/

import CrateAudit.Settings
import CrateAudit.Source

namespace CrateAudit.Scan

/-- The line that stands for the whole file: the first one, or zero if there is none. -/
def wholeFileLine (lines : List Line) : Int :=
  if lines.isEmpty then 0 else 1

/-- The first line that starts with the word for the edition, trimmed, with its index. -/
def editionLine? (lines : List Line) : Option (Line × Nat) :=
  ((lines.map Text.trim).zipIdx).find? fun entry => "edition".toList.isPrefixOf entry.1

/-- The first edition line decides. A file without one is at fault only if it is a package: a
workspace has no edition of its own. -/
def checkEdition (settings : Settings) (source : Source) : List Violation :=
  let allowed := settings.allowedEditions
  match editionLine? source.lines with
  | some (line, index) =>
    if Text.includes "workspace".toList line ||
        allowed.any (fun edition => Text.includes edition.toList line) then []
    else
      [⟨.wrongEdition, source.path, index + 1,
        "Must use Edition " ++ " or ".intercalate allowed, .error⟩]
  | none =>
    if source.lines.any fun line => "[package]".toList.isPrefixOf (Text.trim line) then
      [⟨.wrongEdition, source.path, wholeFileLine source.lines,
        "Missing edition specification - must be " ++
          " or ".intercalate (allowed.map Text.quoted), .error⟩]
    else []

/-- A line without its comment and outer blanks. -/
def withoutComment (line : Line) : Line :=
  Text.trim (Text.upTo '#' line)

/-- The text of a table header between its brackets. -/
def headerText (line : Line) : Line :=
  Text.trim (Text.trimBy (fun character => character = '[' || character = ']') line)

def withoutQuotes (name : Line) : Line :=
  Text.trimBy (· = '"') name

/-- The crate that a header declares by naming it after a table of dependencies. -/
def headerCrate? (header : Line) : Option Line :=
  if Text.includes ".dependencies.".toList ('.' :: header) then
    some (withoutQuotes (Text.afterLast '.' header))
  else none

/-- The crate that a line of a table of dependencies declares: the first part of its key. -/
def entryCrate? (line : Line) : Option Line :=
  if line.contains '=' then
    some (Text.upTo '.' (withoutQuotes (Text.trim (Text.upTo '=' line))))
  else none

/-- The crates that the lines declare; `inside` a table of dependencies or not. -/
def declaredFrom (inside : Bool) : List Line → List Line
  | [] => []
  | line :: rest =>
    let text := withoutComment line
    if text.head? = some '[' then
      let header := headerText text
      (headerCrate? header).toList ++
        declaredFrom ("dependencies".toList.isSuffixOf header) rest
    else (if inside then (entryCrate? text).toList else []) ++ declaredFrom inside rest

/-- The crates that a manifest declares in any of its tables of dependencies. -/
def declaredDependencies (lines : List Line) : List String :=
  (declaredFrom false lines).map String.ofList

/-- A finding for each required crate that is not declared. -/
def checkDependencies (settings : Settings) (source : Source) : List Violation :=
  let declared := declaredDependencies source.lines
  (settings.requiredDependencies.filter fun name => !declared.contains name).map fun name =>
    ⟨.missingDependencies, source.path, wholeFileLine source.lines,
      "Missing required dependency '" ++ name ++ "'", .error⟩

/-- The violations of a manifest, by line and kind. -/
def manifest (settings : Settings) (source : Source) : List Violation :=
  Violation.sortInFile <|
    (if settings.isEnabled .wrongEdition then checkEdition settings source else []) ++
    (if settings.isEnabled .missingDependencies then checkDependencies settings source else [])

end CrateAudit.Scan
