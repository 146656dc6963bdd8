/-
This file writes JSON documents: two blanks of indentation a level, keys in the order
given, and every character outside ASCII escaped in UTF-16 units.
-/

import CrateAudit.Number.Shortest
import CrateAudit.Text.Quoted

namespace CrateAudit

/-- A JSON document. Whole numbers are exact. -/
inductive Json where
  | null
  | boolean (value : Bool)
  | integer (value : Int)
  | float (value : Binary64)
  | string (value : String)
  | array (items : List Json)
  | object (entries : List (String × Json))

namespace Json

/-- One UTF-16 unit as an escape. -/
def unitEscape (unit : Nat) : List Char :=
  '\\' :: 'u' :: Text.hexadecimal 4 unit

/-- How a character is written between the double quotes. -/
def stringCharacter (character : Char) : List Char :=
  let code := character.toNat
  if character == '"' then ['\\', '"']
  else if character == '\\' then ['\\', '\\']
  else if code == 0x08 then ['\\', 'b']
  else if code == 0x09 then ['\\', 't']
  else if code == 0x0A then ['\\', 'n']
  else if code == 0x0C then ['\\', 'f']
  else if code == 0x0D then ['\\', 'r']
  else if 0x20 ≤ code && code < 0x7F then [character]
  else if code < 0x10000 then unitEscape code
  else
    unitEscape (0xD800 + (code - 0x10000) / 0x400) ++
      unitEscape (0xDC00 + (code - 0x10000) % 0x400)

/-- The text between double quotes. -/
def stringText (text : String) : String :=
  String.ofList ('"' :: text.toList.flatMap stringCharacter ++ ['"'])

/-- Infinite and undefined numbers have no JSON form and get names. -/
def floatText : Binary64 → String
  | .infinite negative => if negative then "-Infinity" else "Infinity"
  | .undefined => "NaN"
  | value => value.text

/-- A line feed and the indentation of a level. -/
def lineStart (level : Nat) : String :=
  String.ofList ('\n' :: List.replicate (2 * level) ' ')

/-- Puts the parts of an array or object on lines of their own. -/
def enclose (first last : String) (level : Nat) (parts : List String) : String :=
  if parts.isEmpty then first ++ last
  else
    let inner := lineStart (level + 1)
    first ++ inner ++ ("," ++ inner).intercalate parts ++ lineStart level ++ last

mutual

/-- The document, written at an indentation level. -/
def render (level : Nat) : Json → String
  | .null => "null"
  | .boolean value => if value then "true" else "false"
  | .integer value => toString value
  | .float value => floatText value
  | .string value => stringText value
  | .array items => enclose "[" "]" level (renderItems (level + 1) items)
  | .object entries => enclose "\x7b" "\x7d" level (renderEntries (level + 1) entries)

def renderItems (level : Nat) : List Json → List String
  | [] => []
  | item :: rest => render level item :: renderItems level rest

def renderEntries (level : Nat) : List (String × Json) → List String
  | [] => []
  | (key, value) :: rest =>
    (stringText key ++ ": " ++ render level value) :: renderEntries level rest

end

/-- A text, or `null` where there is none. -/
def ofOption : Option String → Json
  | some text => .string text
  | none => .null

def ofStrings (texts : List String) : Json :=
  .array (texts.map .string)

end Json

end CrateAudit
