/-
This file holds what the program takes from the language that it runs in and has no say
in: how a search pattern is compiled, and which values and documents are nested too
deeply for it to follow.
-/

import CrateAudit.Data.Value
import CrateAudit.Regex.Reading

namespace CrateAudit

/-- What runs the program. -/
structure Interpreter where
  compile : String → Except Regex.Fault Regex
  tooDeepToShow : Value → Bool
  tooDeepToRead : List Char → Bool

namespace Interpreter

/-- One that compiles patterns as they are read here and follows any nesting. -/
def plain : Interpreter := ⟨Regex.read, fun _ => false, fun _ => false⟩

end Interpreter

end CrateAudit
