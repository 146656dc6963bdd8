/-
This file reads a line as one who has only the numbers of its characters: it walks along
them and writes the state of each under its number. There is no result where a character
is asked for, or a state is written, that the line does not have.
-/

import CrateAudit.Rust.Lexing

namespace CrateAudit.Rust.Walk

/-- Writes a state under so many numbers from an index on. -/
def fill? (state : State) (index : Nat) : Nat → List State → Option (List State)
  | 0, states => some states
  | count + 1, states =>
    if index < states.length then fill? state (index + 1) count (states.set index state) else none

/-! ### The lengths of openers and literals -/

/-- The index of the first character from an index on that is no mark. -/
def marksEnd? (text : Line) (index : Nat) : Option Nat :=
  if index < text.length then do
    let character ← text[index]?
    if character = '#' then marksEnd? text (index + 1) else return index
  else return index
termination_by text.length - index

/-- The character before an index, or the one before that if it is a `b`. -/
def decisiveBefore? (text : Line) (index : Nat) : Option (Option Char) :=
  if 0 < index then do
    let previous ← text[index - 1]?
    if previous = 'b' then
      if 1 < index then do
        let earlier ← text[index - 2]?
        return some earlier
      else return none
    else return some previous
  else return none

/-- The length of the opener of a raw string at an index, zero if there is none. -/
def openerLength? (text : Line) (index : Nat) : Option Nat := do
  let first ← text[index]?
  if first = 'r' then
    let decisive ← decisiveBefore? text index
    if decisive.any Text.isWordCharacter then return 0
    else
      let last ← marksEnd? text (index + 1)
      if last < text.length then
        let character ← text[last]?
        return if character = '"' then last - index + 1 else 0
      else return 0
  else return 0

/-- The length of a character literal at an index, zero if there is none. -/
def characterLength? (text : Line) (index : Nat) : Option Nat := do
  let first ← text[index]?
  if first = '\'' ∧ index + 2 < text.length then
    let second ← text[index + 1]?
    if second = '\\' then
      return ((throughApostrophe? 9 (text.drop (index + 3))).map (3 + ·.1.length)).getD 0
    else
      let third ← text[index + 2]?
      return if third = '\'' then 3 else 0
  else return 0

/-! ### The walk -/

/-- What becomes of the states on the way from an index on. In a string, the character after a
backslash is escaped. -/
def walk? (text : Line) (state : State) (escaped : Bool) (index : Nat) (states : List State) :
    Option Lexing :=
  if index < text.length then do
    let character ← text[index]?
    match state with
    | .inString =>
      let states ← fill? .inString index 1 states
      if escaped then walk? text .inString false (index + 1) states
      else if character = '\\' then walk? text .inString true (index + 1) states
      else if character = '"' then walk? text .normal false (index + 1) states
      else walk? text .inString false (index + 1) states
    | .inRawString =>
      let states ← fill? .inRawString index 1 states
      if character = '"' then walk? text .normal false (index + 1) states
      else walk? text .inRawString false (index + 1) states
    | .normal =>
      if ['/', '/'].isPrefixOf (text.drop index) then return ⟨states, some index⟩
      else
        let opener ← openerLength? text index
        if 0 < opener then
          let states ← fill? .inRawString index opener states
          walk? text .inRawString false (index + opener) states
        else if character = '"' then
          let states ← fill? .inString index 1 states
          walk? text .inString false (index + 1) states
        else
          let length ← characterLength? text index
          if 0 < length then
            let states ← fill? .inString index length states
            walk? text .normal false (index + length) states
          else walk? text .normal false (index + 1) states
  else return ⟨states, none⟩
termination_by text.length - index

/-- The lexing of a line. -/
def lex? (text : Line) : Option Lexing :=
  walk? text .normal false 0 (List.replicate text.length .normal)

/-- A character as it stands in code: as it is, or as a blank in a literal. -/
def inCode (character : Char) (state : State) : Char :=
  if state = .normal then character else ' '

/-- The line with its literals blanked and its comment removed. -/
def codeOnly? (text : Line) : Option Line := do
  let lexing ← lex? text
  (text.take (lexing.commentStart.getD text.length)).zipIdx.mapM fun place => do
    let state ← lexing.states[place.2]?
    return inCode place.1 state

end CrateAudit.Rust.Walk
