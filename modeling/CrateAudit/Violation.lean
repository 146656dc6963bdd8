/-
This file holds the violations that an audit reports and the order in which reports
list them: by file, then by line, then by kind in the order of declaration.
-/

import CrateAudit.Text.Quoted

namespace CrateAudit

/-- How serious a violation is. -/
inductive Severity where
  | error
  | warning
  deriving DecidableEq, Repr

namespace Severity

def label : Severity → String
  | .error => "Error"
  | .warning => "Warning"

end Severity

/-- The kinds of violations. New kinds go to the end, so that the order never shifts. -/
inductive Kind where
  | underscoreBandaid
  | wrongEdition
  | fileTooLarge
  | functionTooLarge
  | lineTooLong
  | unwrapInProduction
  | missingDocs
  | missingDependencies
  | oldRustVersion
  | customPattern
  deriving DecidableEq, Repr

namespace Kind

/-- Every kind, in order. -/
def all : List Kind :=
  [.underscoreBandaid, .wrongEdition, .fileTooLarge, .functionTooLarge, .lineTooLong,
    .unwrapInProduction, .missingDocs, .missingDependencies, .oldRustVersion, .customPattern]

/-- The tag that reports and settings use. -/
def tag : Kind → String
  | .underscoreBandaid => "UnderscoreBandaid"
  | .wrongEdition => "WrongEdition"
  | .fileTooLarge => "FileTooLarge"
  | .functionTooLarge => "FunctionTooLarge"
  | .lineTooLong => "LineTooLong"
  | .unwrapInProduction => "UnwrapInProduction"
  | .missingDocs => "MissingDocs"
  | .missingDependencies => "MissingDependencies"
  | .oldRustVersion => "OldRustVersion"
  | .customPattern => "CustomPattern"

/-- The other spelling that settings may use. -/
def constantName : Kind → String
  | .underscoreBandaid => "UNDERSCORE_BANDAID"
  | .wrongEdition => "WRONG_EDITION"
  | .fileTooLarge => "FILE_TOO_LARGE"
  | .functionTooLarge => "FUNCTION_TOO_LARGE"
  | .lineTooLong => "LINE_TOO_LONG"
  | .unwrapInProduction => "UNWRAP_IN_PRODUCTION"
  | .missingDocs => "MISSING_DOCS"
  | .missingDependencies => "MISSING_DEPENDENCIES"
  | .oldRustVersion => "OLD_RUST_VERSION"
  | .customPattern => "CUSTOM_PATTERN"

/-- The place in the order. -/
def ordinal : Kind → Nat
  | .underscoreBandaid => 0
  | .wrongEdition => 1
  | .fileTooLarge => 2
  | .functionTooLarge => 3
  | .lineTooLong => 4
  | .unwrapInProduction => 5
  | .missingDocs => 6
  | .missingDependencies => 7
  | .oldRustVersion => 8
  | .customPattern => 9

/-- The kind with a tag, in either spelling. -/
def ofTag? (text : String) : Option Kind :=
  all.find? fun kind => text == kind.tag || text == kind.constantName

/-- The complaint about a text that is no tag. -/
def unknownMessage (text : String) : String :=
  "Unknown violation kind: " ++ Text.quoted text

theorem mem_all (kind : Kind) : kind ∈ all := by
  cases kind <;> decide

/-- A kind is found by its own tag. -/
theorem ofTag?_tag (kind : Kind) : ofTag? kind.tag = some kind := by
  cases kind <;> decide

theorem ofTag?_constantName (kind : Kind) : ofTag? kind.constantName = some kind := by
  cases kind <;> decide

end Kind

/-- A violation of the standards. Lines are counted from one. -/
structure Violation where
  kind : Kind
  file : String
  line : Int
  message : String
  severity : Severity
  deriving DecidableEq, Repr

namespace Violation

/-- The order of reports. -/
def atMost (first second : Violation) : Bool :=
  first.file < second.file ||
    (first.file == second.file &&
      (first.line < second.line ||
        (first.line == second.line && first.kind.ordinal ≤ second.kind.ordinal)))

/-- The order within one file. -/
def atMostInFile (first second : Violation) : Bool :=
  first.line < second.line ||
    (first.line == second.line && first.kind.ordinal ≤ second.kind.ordinal)

/-- The violations of one file in order; equal ones keep their order. -/
def sortInFile (violations : List Violation) : List Violation :=
  violations.mergeSort atMostInFile

/-- The violations of several files in one list, in order; equal ones keep their order. -/
def merge (groups : List (List Violation)) : List Violation :=
  groups.flatten.mergeSort atMost

/-- Where a violation lies, as reports name it. -/
def location (violation : Violation) : String :=
  violation.file ++ ":" ++ toString violation.line

end Violation

end CrateAudit
