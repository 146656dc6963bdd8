/-
This file holds the name, the version and the banner of the tool, and the sentence
that every report of a project without violations contains.
-/

namespace CrateAudit.Report

def version : String := "0.4.0"

def toolName : String := "rust-compliance"

/-- The banner, one line of it an entry. -/
def bannerLines : List String :=
  ["",
    "   ___  __  _____________    ______________  ___  __   _______   _  _________",
    "  / _ \\/ / / / __/_  __/___ / ___/ __ \\/  |/  / / /  /  _/ _ | / |/ / ___/ __/",
    " / , _/ /_/ /\\ \\  / / /___// /__/ /_/ / /|_/ / /__/ _/ // __ |/    / /__/ _/",
    "/_/|_|\\____/___/ /_/       \\___/\\____/_/  /_/____/___/_/ |_/_/|_/\\___/___/",
    ""]

/-- The banner with its colour. -/
def banner : String :=
  "[bold dark_orange]" ++ "\n".intercalate bannerLines ++ "[/bold dark_orange]"

def fullCompliance : String :=
  "All files are compliant with the configured Rust standards."

end CrateAudit.Report
