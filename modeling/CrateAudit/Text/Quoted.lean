/-
This file writes a text between quotes, as messages show the texts they complain
about. Single quotes are used unless the text holds one and no double quote. A
backslash, the quote in use and every character that is not printable are escaped.
-/

import CrateAudit.Text.Printable

namespace CrateAudit.Text

/-- The hexadecimal digits of a number, in small letters, at least `width` of them. -/
def hexadecimal (width number : Nat) : List Char :=
  let digits := Nat.toDigits 16 number
  List.replicate (width - digits.length) '0' ++ digits

/-- The escape of a character by its code, in two, four or eight digits. -/
def codeEscape (character : Char) : List Char :=
  let code := character.toNat
  if code < 0x100 then '\\' :: 'x' :: hexadecimal 2 code
  else if code < 0x10000 then '\\' :: 'u' :: hexadecimal 4 code
  else '\\' :: 'U' :: hexadecimal 8 code

/-- How one character is shown between the quotes `mark`. -/
def quotedCharacter (mark character : Char) : List Char :=
  if character == mark || character == '\\' then ['\\', character]
  else if character == '\n' then ['\\', 'n']
  else if character == '\r' then ['\\', 'r']
  else if character == '\t' then ['\\', 't']
  else if isPrintable character then [character]
  else codeEscape character

/-- The quotes around a text: double ones if it holds a single quote and no double one. -/
def quoteMark (text : List Char) : Char :=
  if text.contains '\'' && !text.contains '"' then '"' else '\''

/-- The text between quotes. -/
def quoted (text : String) : String :=
  let mark := quoteMark text.toList
  String.ofList (mark :: text.toList.flatMap (quotedCharacter mark) ++ [mark])

end CrateAudit.Text
