/-
This file gives the words for what is wrong with a search pattern, with a document of
settings or with the bytes of a file. Messages take their words from here, so that
they can be exchanged without touching the messages.
-/

import CrateAudit.Regex.Reading
import CrateAudit.Toml.Document

namespace CrateAudit

namespace Regex.Fault

def words : Fault → String
  | .endsInBackslash => "the pattern ends in a backslash"
  | .unknownEscape => "unknown escape"
  | .incompleteEscape => "incomplete escape"
  | .octalTooLarge => "octal escape out of range"
  | .unterminatedSet => "a set is not closed"
  | .badRange => "a range runs backwards or ends in a class"
  | .nothingToRepeat => "nothing to repeat"
  | .repeatedTwice => "a repetition is repeated"
  | .boundsReversed => "the least count is above the most"
  | .repetitionTooLarge => "the count of a repetition is too large"
  | .unbalancedParenthesis => "a parenthesis is not opened"
  | .unterminatedGroup => "a group is not closed"
  | .unterminatedComment => "a comment is not closed"
  | .unknownExtension => "unknown kind of group"
  | .badGroupName => "a group needs a name of letters, digits and underscores"
  | .groupNamedTwice => "two groups have the same name"
  | .unknownGroup => "there is no such group"
  | .openGroup => "a group is referred to before it ends"
  | .groupInSameCondition => "a group is referred to in the condition that holds it"
  | .misplacedFlags => "flags for the whole pattern have to come first"
  | .badFlags => "unknown or conflicting flags"
  | .widthNotFixed => "a condition on what is behind needs a fixed width"

end Regex.Fault

namespace Toml.Fault

def words : Fault → String
  | .statementExpected => "a key or a table expected"
  | .endOfLineExpected => "the end of the line expected"
  | .controlCharacter => "a control character is not allowed"
  | .keyExpected => "a key expected"
  | .equalsExpected => "an equals sign expected"
  | .valueExpected => "a value expected"
  | .unterminatedText => "a text is not closed"
  | .badEscape => "unknown escape"
  | .badDate => "there is no such date or time"
  | .bracketExpected => "a bracket expected"
  | .declaredTwice => "a table is declared twice"
  | .valueOverwritten => "a value cannot be overwritten"
  | .frozen => "a table in braces cannot be extended"
  | .tooManyDigits count => Number.tooLongMessage (some count)

end Toml.Fault

/-- The words for faults of each sort. -/
structure FaultWords where
  regex : Regex.Fault → String
  toml : Toml.Fault → String
  encoding : String

namespace FaultWords

/-- The words for what keeps bytes from being read. -/
def obstacle (words : FaultWords) : Toml.Obstacle → String
  | .notUtf8 => words.encoding
  | .nestedTooDeep => "maximum recursion depth exceeded"
  | .tooManyDigits count => Number.tooLongMessage (some count)

def plain : FaultWords :=
  ⟨Regex.Fault.words, Toml.Fault.words, "the bytes are not valid UTF-8"⟩

end FaultWords

end CrateAudit
