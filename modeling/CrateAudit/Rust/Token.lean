/-
This file cuts a line of Rust into tokens: comments, raw strings, strings, character
literals, and single characters of code. It works on one line at a time and does not
count the marks of a raw string, which the next quote closes. Every character of the
line belongs to exactly one token.
-/

import CrateAudit.Text.Alphanumeric
import CrateAudit.Text.Blank

namespace CrateAudit.Rust

/-- What a token is. -/
inductive TokenKind where
  | comment
  | rawString
  | string
  | character
  | code
  deriving DecidableEq, Repr

/-- A piece of a line. -/
structure Token where
  kind : TokenKind
  text : Line
  deriving DecidableEq, Repr

/-! ### The parts of literals -/

/-- Splits after the first double quote; the second part is empty if there is none. -/
def throughQuote : Line → Line × Line
  | [] => ([], [])
  | character :: rest =>
    if character = '"' then (['"'], rest)
    else
      let later := throughQuote rest
      (character :: later.1, later.2)

/-- Splits after the first double quote that no backslash escapes. -/
def throughPlainQuote : Line → Line × Line
  | [] => ([], [])
  | '\\' :: escaped :: rest =>
    let later := throughPlainQuote rest
    ('\\' :: escaped :: later.1, later.2)
  | character :: rest =>
    if character = '"' then (['"'], rest)
    else
      let later := throughPlainQuote rest
      (character :: later.1, later.2)

/-- The character that decides whether an `r` may open a raw string: the one before it,
or the one before that if it is a `b`. The text before is given in reverse. -/
def decisive? : Line → Option Char
  | [] => none
  | 'b' :: before => before.head?
  | character :: _ => some character

/-- Whether an `r` after this text is not the end of a longer name. -/
def mayOpenRaw (before : Line) : Bool :=
  !(decisive? before).any Text.isWordCharacter

/-- The rest of a raw string after its `r`, and what follows it. -/
def rawString? (rest : Line) : Option (Line × Line) :=
  match rest.dropWhile (· = '#') with
  | '"' :: body =>
    let parts := throughQuote body
    some (rest.takeWhile (· = '#') ++ '"' :: parts.1, parts.2)
  | _ => none

/-- Splits after the first apostrophe among the first `count` characters. -/
def throughApostrophe? : Nat → Line → Option (Line × Line)
  | 0, _ => none
  | _, [] => none
  | count + 1, character :: rest =>
    if character = '\'' then some (['\''], rest)
    else (throughApostrophe? count rest).map fun later => (character :: later.1, later.2)

/-- The rest of a character literal after its apostrophe, and what follows it. The closing
apostrophe of an escape stands at most eleven places after the opening one. -/
def characterLiteral? : Line → Option (Line × Line)
  | '\\' :: escaped :: rest =>
    (throughApostrophe? 9 rest).map fun later => ('\\' :: escaped :: later.1, later.2)
  | character :: next :: rest =>
    if character ≠ '\\' ∧ next = '\'' then some ([character, '\''], rest) else none
  | _ => none

/-! ### The tokens of a line -/

/-- The token that starts with `first`, and what follows it. -/
def nextToken (before : Line) (first : Char) (rest : Line) : Token × Line :=
  if first = '/' ∧ rest.head? = some '/' then (⟨.comment, first :: rest⟩, [])
  else if first = 'r' ∧ mayOpenRaw before = true then
    match rawString? rest with
    | some parts => (⟨.rawString, first :: parts.1⟩, parts.2)
    | none => (⟨.code, [first]⟩, rest)
  else if first = '"' then
    let parts := throughPlainQuote rest
    (⟨.string, first :: parts.1⟩, parts.2)
  else if first = '\'' then
    match characterLiteral? rest with
    | some parts => (⟨.character, first :: parts.1⟩, parts.2)
    | none => (⟨.code, [first]⟩, rest)
  else (⟨.code, [first]⟩, rest)

theorem throughQuote_append (line : Line) :
    (throughQuote line).1 ++ (throughQuote line).2 = line := by
  fun_induction throughQuote line with
  | case1 => rfl
  | case2 => rfl
  | case3 character rest _ later inductionHypothesis =>
    simpa [later] using inductionHypothesis

theorem throughPlainQuote_append (line : Line) :
    (throughPlainQuote line).1 ++ (throughPlainQuote line).2 = line := by
  fun_induction throughPlainQuote line with
  | case1 => rfl
  | case2 escaped rest later inductionHypothesis => simpa [later] using inductionHypothesis
  | case3 => rfl
  | case4 character rest _ _ later inductionHypothesis => simpa [later] using inductionHypothesis

theorem rawString?_append {rest : Line} {parts : Line × Line}
    (found : rawString? rest = some parts) :
    parts.1 ++ parts.2 = rest := by
  unfold rawString? at found
  split at found
  · rename_i body shape
    cases found
    simp only [List.append_assoc, List.cons_append, throughQuote_append]
    rw [← shape, List.takeWhile_append_dropWhile]
  · cases found

theorem throughApostrophe?_append {count : Nat} {line : Line} {parts : Line × Line}
    (found : throughApostrophe? count line = some parts) : parts.1 ++ parts.2 = line := by
  induction count generalizing line parts with
  | zero => cases found
  | succ count inductionHypothesis =>
    cases line with
    | nil => cases found
    | cons character rest =>
      unfold throughApostrophe? at found
      split at found
      · rename_i quote
        cases found
        simp [quote]
      · obtain ⟨later, foundLater, rfl⟩ := Option.map_eq_some_iff.mp found
        simp [inductionHypothesis foundLater]

theorem characterLiteral?_append {rest : Line} {parts : Line × Line}
    (found : characterLiteral? rest = some parts) : parts.1 ++ parts.2 = rest := by
  unfold characterLiteral? at found
  split at found
  · obtain ⟨later, foundLater, rfl⟩ := Option.map_eq_some_iff.mp found
    simp [throughApostrophe?_append foundLater]
  · split at found
    · rename_i quote
      cases found
      simp [quote.2]
    · cases found
  · cases found

/-- A token and what follows it make up the text. -/
theorem nextToken_append (before : Line) (first : Char) (rest : Line) :
    (nextToken before first rest).1.text ++ (nextToken before first rest).2 = first :: rest := by
  unfold nextToken
  split
  · simp
  · split
    · split
      · rename_i parts found
        simp [rawString?_append found]
      · rfl
    · split
      · simp [throughPlainQuote_append]
      · split
        · split
          · rename_i parts found
            simp [characterLiteral?_append found]
          · rfl
        · rfl

/-- A token begins with the character it was read from. -/
theorem nextToken_text (before : Line) (first : Char) (rest : Line) :
    ∃ tail, (nextToken before first rest).1.text = first :: tail := by
  unfold nextToken
  split
  · exact ⟨_, rfl⟩
  · split
    · split <;> exact ⟨_, rfl⟩
    · split
      · exact ⟨_, rfl⟩
      · split
        · split <;> exact ⟨_, rfl⟩
        · exact ⟨_, rfl⟩

theorem nextToken_length (before : Line) (first : Char) (rest : Line) :
    (nextToken before first rest).2.length ≤ rest.length := by
  obtain ⟨tail, shape⟩ := nextToken_text before first rest
  have whole := congrArg List.length (nextToken_append before first rest)
  rw [shape] at whole
  simp only [List.cons_append, List.length_cons, List.length_append] at whole
  omega

/-- The tokens of a text that stands after the reversed text `before`. -/
def tokensAfter (before : Line) : Line → List Token
  | [] => []
  | first :: rest =>
    let step := nextToken before first rest
    step.1 :: tokensAfter (step.1.text.reverse ++ before) step.2
  termination_by line => line.length
  decreasing_by
    have shorter := nextToken_length before first rest
    simp only [List.length_cons]
    omega

/-- The tokens of a line. -/
def tokens (line : Line) : List Token :=
  tokensAfter [] line

/-- Nothing is lost: the tokens make up the line. -/
theorem flatMap_tokensAfter (before line : Line) :
    (tokensAfter before line).flatMap Token.text = line := by
  fun_induction tokensAfter before line with
  | case1 => rfl
  | case2 before first rest step inductionHypothesis =>
    rw [List.flatMap_cons, inductionHypothesis, nextToken_append]

end CrateAudit.Rust
