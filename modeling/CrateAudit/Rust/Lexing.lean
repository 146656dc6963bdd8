/-
This file says for each character of a line whether it is code, part of a literal or
part of a comment, and blanks out what is not code so that code can be searched
without being misled by literals and comments.
-/

import CrateAudit.Rust.Token
import CrateAudit.Text.Search

namespace CrateAudit.Rust

/-- The state of one character. A comment does not change the state of its characters. -/
inductive State where
  | normal
  | inString
  | inRawString
  deriving DecidableEq, Repr

/-- Where a place of a line lies. -/
inductive Context where
  | code
  | literal
  | comment
  deriving DecidableEq, Repr

/-- The states of a line's characters, and the offset at which a comment starts. -/
structure Lexing where
  states : List State
  commentStart : Option Nat
  deriving DecidableEq, Repr

namespace TokenKind

def state : TokenKind → State
  | .comment | .code => .normal
  | .rawString => .inRawString
  | .string | .character => .inString

end TokenKind

namespace Token

/-- One state for each character. -/
def states (token : Token) : List State :=
  List.replicate token.text.length token.kind.state

/-- Code as it is, a blank for each character of a literal, and nothing for a comment. -/
def blanked (token : Token) : Line :=
  match token.kind with
  | .code => token.text
  | .comment => []
  | .rawString | .string | .character => List.replicate token.text.length ' '

end Token

/-- The offset of the comment among tokens that start at `offset`. -/
def commentStartFrom (offset : Nat) : List Token → Option Nat
  | [] => none
  | token :: rest =>
    match token.kind with
    | .comment => some offset
    | _ => commentStartFrom (offset + token.text.length) rest

/-- The lexing of a line. -/
def lex (line : Line) : Lexing :=
  ⟨(tokens line).flatMap Token.states, commentStartFrom 0 (tokens line)⟩

/-- Where the character at an offset lies. What is past the end counts as code, unless there
is a comment. -/
def Lexing.contextAt (lexing : Lexing) (offset : Nat) : Context :=
  if lexing.commentStart.any (· ≤ offset) then .comment
  else
    match lexing.states[offset]? with
    | some .inString | some .inRawString => .literal
    | some .normal | none => .code

/-- The same for an offset that counts from the end when negative. Such an offset finds the
character alone, whether or not it lies in a comment; there is no answer before the start. -/
def Lexing.contextAt? (lexing : Lexing) (offset : Int) : Option Context :=
  if 0 ≤ offset then some (lexing.contextAt offset.toNat)
  else if 0 ≤ offset + lexing.states.length then
    some <| match lexing.states[(offset + lexing.states.length).toNat]? with
      | some .inString | some .inRawString => .literal
      | some .normal | none => .code
  else none

/-- The line with its literals blanked and its comment removed. Offsets do not change. -/
def codeOnly (line : Line) : Line :=
  (tokens line).flatMap Token.blanked

/-- Whether a text occurs in the line, and every occurrence starts inside a literal or a
comment. The empty text never does. -/
def isInert (line sought : Line) : Bool :=
  let offsets := Text.occurrences sought line
  !sought.isEmpty && !offsets.isEmpty &&
    offsets.all fun offset => (lex line).contextAt offset != .code

/-! ### Lengths -/

theorem length_flatMap_states (before line : Line) :
    ((tokensAfter before line).flatMap Token.states).length = line.length := by
  fun_induction tokensAfter before line with
  | case1 => rfl
  | case2 before first rest step inductionHypothesis =>
    rw [List.flatMap_cons, List.length_append, inductionHypothesis]
    have whole := congrArg List.length (nextToken_append before first rest)
    rw [List.length_append] at whole
    simpa [Token.states, step] using whole

/-- Every character has a state. -/
theorem length_lex_states (line : Line) : (lex line).states.length = line.length :=
  length_flatMap_states [] line

end CrateAudit.Rust
