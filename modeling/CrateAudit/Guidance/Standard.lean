/-
This file holds the guidance that comes with the audit: for each kind of violation a
name, a suggestion, whether it can be fixed without review, and how urgent it is.
-/

import CrateAudit.Guidance

namespace CrateAudit.Guidance

/-- An entry of the standard guidance. Priority one is fixed first, four when convenient. -/
structure Advice where
  tag : String
  displayName : String
  suggestion : String
  autoFixable : Bool
  priority : Nat
  effort : String
  strategy : String
  example_ : String

/-- The entry in the form of the registry. -/
def Advice.fields (advice : Advice) : Table :=
  [("display_name", .string advice.displayName),
    ("suggested_fix", .string advice.suggestion),
    ("auto_fixable", .boolean advice.autoFixable),
    ("priority", .integer advice.priority),
    ("effort_level", .string advice.effort),
    ("fix_strategy", .string advice.strategy),
    ("example_fix", .string advice.example_)]

def standardAdvice : List Advice := [
  { tag := "UnwrapInProduction"
    displayName := "Unwrap in production"
    suggestion := "Replace `.unwrap()` / `.expect()` with `?` or proper error handling"
    autoFixable := true
    priority := 1
    effort := "Easy"
    strategy :=
        "1. Change function to return Result<T, Error>\n" ++
        "2. Replace unwrap with ?\n" ++
        "3. Handle errors at call sites"
    example_ :=
        "// Before: value.unwrap()\n" ++
        "// After: value?" },
  { tag := "UnderscoreBandaid"
    displayName := "Underscore bandaid"
    suggestion := "Remove unused parameter or implement missing functionality"
    autoFixable := true
    priority := 2
    effort := "Moderate"
    strategy :=
        "1. Identify what functionality the parameter should provide\n" ++
        "2. Either implement the functionality or remove the parameter\n" ++
        "3. Update function signature and callers"
    example_ :=
        "// Before: fn process(_unused: String, data: Data)\n" ++
        "// After: fn process(data: Data) or implement the unused parameter" },
  { tag := "FunctionTooLarge"
    displayName := "Function too large"
    suggestion := "Extract helper functions or split into smaller, focused functions"
    autoFixable := false
    priority := 3
    effort := "Moderate"
    strategy :=
        "1. Find the independent steps inside the function\n" ++
        "2. Extract each step into a named helper\n" ++
        "3. Keep the original function as the orchestrator"
    example_ :=
        "// Before: fn run() \x7b /* 80 lines */ \x7d\n" ++
        "// After: fn run() \x7b let cfg = load()?; let out = process(&cfg)?; write(out) \x7d" },
  { tag := "FileTooLarge"
    displayName := "File too large"
    suggestion := "Split file into smaller modules following single responsibility principle"
    autoFixable := false
    priority := 3
    effort := "Hard"
    strategy :=
        "1. Identify logical boundaries\n" ++
        "2. Extract modules\n" ++
        "3. Move related functions to new modules\n" ++
        "4. Update imports"
    example_ :=
        "// Extract to separate modules like:\n" ++
        "// validation/core.rs, validation/types.rs" },
  { tag := "LineTooLong"
    displayName := "Line too long"
    suggestion := "Break the line or run rustfmt"
    autoFixable := false
    priority := 4
    effort := "Trivial"
    strategy :=
        "Run `cargo fmt` and split long expressions or string literals"
    example_ :=
        "" },
  { tag := "MissingDocs"
    displayName := "Missing documentation"
    suggestion := "Add a `///` doc comment describing the public item"
    autoFixable := false
    priority := 4
    effort := "Easy"
    strategy :=
        "Document every public function, type, trait and module"
    example_ :=
        "/// Parses the configuration file at `path`.\n" ++
        "pub fn parse(path: &Path) -> Result<Config> \x7b" },
  { tag := "WrongEdition"
    displayName := "Wrong edition"
    suggestion := "Set `edition = \"2024\"` in Cargo.toml"
    autoFixable := false
    priority := 2
    effort := "Easy"
    strategy :=
        "Update the [package] edition and run `cargo fix --edition`"
    example_ :=
        "edition = \"2024\"" },
  { tag := "MissingDependencies"
    displayName := "Missing dependencies"
    suggestion := "Add the required crates to [dependencies]"
    autoFixable := false
    priority := 3
    effort := "Easy"
    strategy :=
        "Add each required crate with `cargo add <name>`"
    example_ :=
        "" },
  { tag := "OldRustVersion"
    displayName := "Old Rust version"
    suggestion := "Upgrade the toolchain with `rustup update`"
    autoFixable := false
    priority := 2
    effort := "Easy"
    strategy :=
        "Install a current stable toolchain"
    example_ :=
        "" },
  { tag := "_default"
    displayName := "Standards violation"
    suggestion := "Review and fix according to the configured standards"
    autoFixable := false
    priority := 4
    effort := "Moderate"
    strategy :=
        "Review and fix manually"
    example_ :=
        "" }]

/-- The guidance that comes with the audit. -/
def standard : Guidance :=
  .ofTable (standardAdvice.map fun advice => (advice.tag, .table advice.fields))

end CrateAudit.Guidance
