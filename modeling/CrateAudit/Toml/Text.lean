/-
This file reads the texts of a TOML document: comments, keys and the four kinds of
strings. Line breaks are line feeds. A control character other than a tab is refused
everywhere, and only the strings of several lines may hold a line feed.
-/

import CrateAudit.Text.Blank

namespace CrateAudit.Toml

/-- Why a document cannot be read. -/
inductive Fault where
  | statementExpected
  | endOfLineExpected
  | controlCharacter
  | keyExpected
  | equalsExpected
  | valueExpected
  | unterminatedText
  | badEscape
  | badDate
  | bracketExpected
  | declaredTwice
  | valueOverwritten
  | frozen
  | tooManyDigits (count : Nat)
  deriving DecidableEq, Repr

/-- A control character. -/
def isControl (character : Char) : Bool :=
  character.toNat < 0x20 || character.toNat == 0x7F

/-- A character that no text on one line may hold. -/
def isIllegal (character : Char) : Bool :=
  isControl character && character != '\t'

/-- A character that no text may hold. -/
def isIllegalAnywhere (character : Char) : Bool :=
  isControl character && character != '\t' && character != '\n'

/-- A blank within a line. -/
def isSpace (character : Char) : Bool :=
  character == ' ' || character == '\t'

/-- A blank or a line feed. -/
def isSpaceOrFeed (character : Char) : Bool :=
  isSpace character || character == '\n'

def skipSpace (text : List Char) : List Char :=
  text.dropWhile isSpace

/-- Skips a comment up to the end of its line. -/
def skipComment : List Char → Except Fault (List Char)
  | '#' :: rest =>
    if (rest.takeWhile (· != '\n')).any isIllegal then .error .controlCharacter
    else .ok (rest.dropWhile (· != '\n'))
  | text => .ok text

/-! ### Strings -/

/-- The text up to an apostrophe on the same line. -/
def literalText : List Char → Except Fault (List Char × List Char)
  | [] => .error .unterminatedText
  | '\'' :: rest => .ok ([], rest)
  | character :: rest => do
    if isIllegal character then throw .controlCharacter
    let (text, after) ← literalText rest
    return (character :: text, after)

/-- The text up to three apostrophes. -/
def longLiteralText : List Char → Except Fault (List Char × List Char)
  | [] => .error .unterminatedText
  | '\'' :: '\'' :: '\'' :: rest => .ok ([], rest)
  | character :: rest => do
    if isIllegalAnywhere character then throw .controlCharacter
    let (text, after) ← longLiteralText rest
    return (character :: text, after)

/-- The value of a hexadecimal digit. -/
def hexDigit? (character : Char) : Option Nat :=
  if character.isDigit then some (character.toNat - 0x30)
  else if 'a' ≤ character && character ≤ 'f' then some (character.toNat - 0x61 + 10)
  else if 'A' ≤ character && character ≤ 'F' then some (character.toNat - 0x41 + 10)
  else none

/-- A character given by exactly `count` hexadecimal digits. -/
def hexCharacter (count : Nat) (text : List Char) : Except Fault (Char × List Char) :=
  match (text.take count).mapM hexDigit? with
  | none => .error .badEscape
  | some digits =>
    let code := digits.foldl (fun number digit => number * 16 + digit) 0
    if digits.length = count ∧ code.isValidChar then .ok (Char.ofNat code, text.drop count)
    else .error .badEscape

/-- The character after a backslash. -/
def escape : List Char → Except Fault (Char × List Char)
  | 'b' :: rest => .ok ('\x08', rest)
  | 't' :: rest => .ok ('\t', rest)
  | 'n' :: rest => .ok ('\n', rest)
  | 'f' :: rest => .ok ('\x0c', rest)
  | 'r' :: rest => .ok ('\r', rest)
  | '"' :: rest => .ok ('"', rest)
  | '\\' :: rest => .ok ('\\', rest)
  | 'u' :: rest => hexCharacter 4 rest
  | 'U' :: rest => hexCharacter 8 rest
  | _ => .error .badEscape

/-- What follows a backslash at the end of a line: the blanks and line feeds after it go too.
There is no answer if something else stands before the line feed. -/
def continuation? (text : List Char) : Option (List Char) :=
  if text.head?.any isSpaceOrFeed then
    match skipSpace text with
    | [] => some []
    | '\n' :: rest => some (rest.dropWhile isSpaceOrFeed)
    | _ => none
  else none

/-- The text up to a double quote on the same line. `bound` is at least the length of the text. -/
def basicText : Nat → List Char → Except Fault (List Char × List Char)
  | 0, _ | _, [] => .error .unterminatedText
  | _ + 1, '"' :: rest => .ok ([], rest)
  | bound + 1, '\\' :: rest => do
    let (character, after) ← escape rest
    let (text, after) ← basicText bound after
    return (character :: text, after)
  | bound + 1, character :: rest => do
    if isIllegal character then throw .controlCharacter
    let (text, after) ← basicText bound rest
    return (character :: text, after)

/-- The text up to three double quotes. `bound` is at least the length of the text. -/
def longBasicText : Nat → List Char → Except Fault (List Char × List Char)
  | 0, _ | _, [] => .error .unterminatedText
  | _ + 1, '"' :: '"' :: '"' :: rest => .ok ([], rest)
  | bound + 1, '\\' :: rest =>
    match continuation? rest with
    | some after => longBasicText bound after
    | none => do
      let (character, after) ← escape rest
      let (text, after) ← longBasicText bound after
      return (character :: text, after)
  | bound + 1, character :: rest => do
    if isIllegalAnywhere character then throw .controlCharacter
    let (text, after) ← longBasicText bound rest
    return (character :: text, after)

/-- Up to two quotes that stand before the closing three belong to the text. -/
def withTrailing (mark : Char) (part : List Char × List Char) : List Char × List Char :=
  let (text, after) := part
  let extra := (after.take 2).takeWhile (· == mark)
  (text ++ extra, after.drop extra.length)

/-- A line feed right after the opening quotes does not belong to the text. -/
def dropFirstFeed : List Char → List Char
  | '\n' :: rest => rest
  | text => text

/-- A string in any of its forms. -/
def string : List Char → Except Fault (List Char × List Char)
  | '"' :: '"' :: '"' :: rest =>
    (longBasicText (rest.length + 1) (dropFirstFeed rest)).map (withTrailing '"')
  | '"' :: rest => basicText (rest.length + 1) rest
  | '\'' :: '\'' :: '\'' :: rest =>
    (longLiteralText (dropFirstFeed rest)).map (withTrailing '\'')
  | '\'' :: rest => literalText rest
  | _ => .error .valueExpected

/-! ### Keys -/

def isBareKey (character : Char) : Bool :=
  character.isAlphanum || character == '-' || character == '_'

/-- One part of a dotted key: a bare word or a string on one line. -/
def keyPart : List Char → Except Fault (String × List Char)
  | [] => .error .keyExpected
  | '"' :: rest =>
    (basicText (rest.length + 1) rest).map fun part => (String.ofList part.1, part.2)
  | '\'' :: rest => (literalText rest).map fun part => (String.ofList part.1, part.2)
  | text =>
    let word := text.takeWhile isBareKey
    if word.isEmpty then .error .keyExpected
    else .ok (String.ofList word, text.dropWhile isBareKey)

/-- The parts of a key, and the text after it and the blanks that follow. `bound` is at least the
length of the text. -/
def key : Nat → List Char → Except Fault (List String × List Char)
  | 0, _ => .error .keyExpected
  | bound + 1, text => do
    let (part, after) ← keyPart text
    match skipSpace after with
    | '.' :: rest =>
      let (parts, after) ← key bound (skipSpace rest)
      return (part :: parts, after)
    | after => return ([part], after)

end CrateAudit.Toml
