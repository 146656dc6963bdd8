/-
This file says what blanking does to a line. The result stands up to the comment, has the
characters of the line where they are code and blanks elsewhere. Nothing in it opens a
literal or a comment: no quote is left, two slashes never come to stand together, and an
apostrophe that is left finds no partner, since what could be its partner was there before.
So the result is lexed as code only, and blanking it again changes nothing.
-/

import CrateAudit.Proofs.Splicing

namespace CrateAudit.Rust

variable {before text rest : Line} {first : Char} {offset : Nat}

/-! ### What is left of a line -/

/-- The context of a place decides what is left there. -/
theorem getElem?_codeAfter (before text : Line) (offset : Nat) :
    (codeAfter before text)[offset]? =
      match contextAfter before text offset with
      | .code => text[offset]?
      | .literal => some ' '
      | .comment => none := by
  fun_induction tokensAfter before text generalizing offset with
  | case1 before =>
    rw [codeAfter_nil, contextAfter, tokensAfter]
    rfl
  | case2 before first rest step =>
    rename_i inductionHypothesis
    rcases nextToken_cases before first rest with ⟨comment, -⟩ | code | literal
    · rw [codeAfter_of_comment comment, contextAfter_of_comment comment]
      rfl
    · simp only [step, code] at inductionHypothesis
      rw [codeAfter_of_code code]
      cases offset with
      | zero =>
        rw [contextAfter_zero_of_code code]
        rfl
      | succ offset =>
        rw [contextAfter_succ_of_code code]
        exact inductionHypothesis offset
    · have whole := nextToken_append before first rest
      rw [codeAfter_of_literal literal, contextAfter_of_literal literal]
      by_cases inside : offset < (nextToken before first rest).1.text.length
      · rw [if_pos inside, List.getElem?_append_left (by rwa [List.length_replicate]),
          List.getElem?_replicate, if_pos inside]
      · have size := Nat.le_of_not_lt inside
        rw [if_neg inside, List.getElem?_append_right (by rwa [List.length_replicate]),
          List.length_replicate, inductionHypothesis, ← whole, List.getElem?_append_right size]

/-- What is left and is no blank stood there before. -/
theorem getElem?_of_codeAfter {character : Char} (left : (codeAfter before text)[offset]? =
    some character) (noBlank : character ≠ ' ') : text[offset]? = some character := by
  rw [getElem?_codeAfter] at left
  cases context : contextAfter before text offset with
  | code => rwa [context] at left
  | literal =>
    rw [context] at left
    exact absurd (Option.some.inj left).symm noBlank
  | comment =>
    rw [context] at left
    cases left

/-- What is left ends where the comment starts. -/
theorem length_codeAfter (before text : Line) :
    (codeAfter before text).length =
      (commentStartFrom 0 (tokensAfter before text)).getD text.length := by
  fun_induction tokensAfter before text with
  | case1 => rw [codeAfter_nil]; rfl
  | case2 before first rest step inductionHypothesis =>
    have whole := congrArg List.length (nextToken_append before first rest)
    rw [List.length_append] at whole
    by_cases comment : step.1.kind = .comment
    · rw [codeAfter_of_comment comment, Walk.commentStartFrom_of_comment comment]
      rfl
    · have start := commentStartFrom_add step.1.text.length 0
        (tokensAfter (step.1.text.reverse ++ before) step.2)
      have size : step.1.blanked.length = step.1.text.length := by
        rw [← Walk.zipWith_states step.1 comment, List.length_zipWith, Token.states,
          List.length_replicate, Nat.min_self]
      rw [codeAfter_cons, List.length_append, Walk.commentStartFrom_of_ne comment, Nat.zero_add,
        ← Nat.add_zero step.1.text.length, start, ← whole, Option.getD_map]
      exact congrArg₂ (· + ·) size inductionHypothesis

/-! ### What can open a literal or a comment -/

/-- No quote is left. -/
theorem quote_not_mem_codeAfter (before text : Line) : '"' ∉ codeAfter before text := by
  fun_induction tokensAfter before text with
  | case1 before =>
    rw [codeAfter_nil]
    exact List.not_mem_nil
  | case2 before first rest step =>
    rename_i inductionHypothesis
    rw [codeAfter_cons, List.mem_append, not_or]
    refine ⟨?_, inductionHypothesis⟩
    rcases nextToken_cases before first rest with ⟨comment, -⟩ | code | literal
    · rw [Token.blanked, comment]
      exact List.not_mem_nil
    · rw [code]
      have other := (nextToken_eq_code_iff.mp code).2.2.1
      exact fun member => other (List.mem_singleton.mp member).symm
    · rw [Token.blanked_of_literal literal]
      exact fun member => absurd (List.eq_of_mem_replicate member) (by decide)

theorem isSome_throughApostrophe? (count : Nat) (text : Line) :
    (throughApostrophe? count text).isSome = true ↔
      ∃ offset < count, text[offset]? = some '\'' := by
  induction count generalizing text with
  | zero => simp [throughApostrophe?]
  | succ count inductionHypothesis =>
    cases text with
    | nil => simp [throughApostrophe?]
    | cons character rest =>
      rw [throughApostrophe?]
      by_cases closes : character = '\''
      · rw [if_pos closes, closes]
        exact iff_of_true rfl ⟨0, Nat.succ_pos count, rfl⟩
      · rw [if_neg closes, Option.isSome_map, inductionHypothesis]
        constructor
        · rintro ⟨offset, near, stands⟩
          exact ⟨offset + 1, Nat.succ_lt_succ near, stands⟩
        · rintro ⟨- | offset, near, stands⟩
          · exact absurd (Option.some.inj stands) closes
          · exact ⟨offset, Nat.lt_of_succ_lt_succ near, stands⟩

/-- After an apostrophe, a literal is a backslash and an apostrophe not far behind, or another
character and an apostrophe. -/
theorem isSome_characterLiteral? (rest : Line) :
    (characterLiteral? rest).isSome = true ↔
      (rest.head? = some '\\' ∧ ∃ offset < 9, rest[offset + 2]? = some '\'') ∨
        (rest.head? ≠ some '\\' ∧ rest[1]? = some '\'') := by
  rcases rest with - | ⟨character, - | ⟨next, rest⟩⟩
  · simp [characterLiteral?]
  · simp [characterLiteral?]
  · by_cases escape : character = '\\'
    · rw [escape, characterLiteral?, Option.isSome_map, isSome_throughApostrophe?]
      simp
    · rw [characterLiteral?]
      · by_cases closes : next = '\''
        · simp [escape, closes]
        · simp [closes, escape]
      · exact escape

/-- A backslash is left exactly where it comes first. -/
theorem head?_codeAfter_eq_backslash :
    (codeAfter before rest).head? = some '\\' ↔ rest.head? = some '\\' := by
  constructor
  · intro left
    rw [List.head?_eq_getElem?] at left ⊢
    exact getElem?_of_codeAfter left (by decide)
  · intro stands
    obtain ⟨tail, rfl⟩ := List.head?_eq_some_iff.mp stands
    rw [codeAfter_of_code (nextToken_of_plain (by decide) (by decide) (by decide)
      (fun raw => absurd raw (by decide)) tail)]
    rfl

/-- What is left after an apostrophe makes no literal with it that was none before. -/
theorem isSome_characterLiteral?_of_codeAfter
    (literal : (characterLiteral? (codeAfter before rest)).isSome = true) :
    (characterLiteral? rest).isSome = true := by
  rw [isSome_characterLiteral?, Ne, head?_codeAfter_eq_backslash] at literal
  rw [isSome_characterLiteral?]
  rcases literal with ⟨escape, offset, near, left⟩ | ⟨plain, left⟩
  · exact Or.inl ⟨escape, offset, near, getElem?_of_codeAfter left (by decide)⟩
  · exact Or.inr ⟨plain, getElem?_of_codeAfter left (by decide)⟩

/-- A character of code stays one when what follows it is blanked, whatever stands before. -/
theorem nextToken_codeAfter (code : nextToken before first rest = (⟨.code, [first]⟩, rest))
    (seen seen' : Line) :
    nextToken seen' first (codeAfter seen rest) = (⟨.code, [first]⟩, codeAfter seen rest) := by
  rw [nextToken_eq_code_iff] at code ⊢
  obtain ⟨noComment, -, noQuote, noLiteral⟩ := code
  refine ⟨fun both => noComment ⟨both.1, ?_⟩, fun both => ?_, noQuote,
    fun both => noLiteral ⟨both.1, isSome_characterLiteral?_of_codeAfter both.2⟩⟩
  · have slash := both.2
    rw [List.head?_eq_getElem?] at slash ⊢
    exact getElem?_of_codeAfter slash (by decide)
  · have opens := (Walk.isSome_rawString? _).mp both.2
    have member : '"' ∈ (codeAfter seen rest).dropWhile (· = '#') := List.mem_of_head? opens
    exact quote_not_mem_codeAfter seen rest ((List.dropWhile_sublist _).subset member)

/-! ### Lexing again -/

/-- One token of code for each character. -/
def codeTokens (text : Line) : List Token :=
  text.map fun character => ⟨.code, [character]⟩

/-- Blanks are code wherever they stand. -/
theorem tokensAfter_blanks (seen : Line) (count : Nat) (rest : Line) :
    tokensAfter seen (List.replicate count ' ' ++ rest) =
      codeTokens (List.replicate count ' ') ++
        tokensAfter (List.replicate count ' ' ++ seen) rest := by
  induction count generalizing seen with
  | zero => rfl
  | succ count inductionHypothesis =>
    rw [List.replicate_succ, List.cons_append, tokensAfter,
      nextToken_of_plain (by decide) (by decide) (by decide) fun raw => absurd raw (by decide)]
    simp only [inductionHypothesis, List.reverse_singleton, List.singleton_append]
    rw [List.append_cons, ← List.replicate_succ', List.replicate_succ]
    rfl

/-- What is left of a line is code, character by character, wherever it stands. -/
theorem tokensAfter_codeAfter (before text seen : Line) :
    tokensAfter seen (codeAfter before text) = codeTokens (codeAfter before text) := by
  fun_induction tokensAfter before text generalizing seen with
  | case1 before =>
    rw [codeAfter_nil, tokensAfter]
    rfl
  | case2 before first rest step =>
    rename_i inductionHypothesis
    rcases nextToken_cases before first rest with ⟨comment, -⟩ | code | literal
    · rw [codeAfter_of_comment comment, tokensAfter]
      rfl
    · simp only [step, code] at inductionHypothesis
      rw [codeAfter_of_code code, tokensAfter, nextToken_codeAfter code]
      exact congrArg _ (inductionHypothesis _)
    · rw [codeAfter_of_literal literal, tokensAfter_blanks, inductionHypothesis, codeTokens,
        codeTokens, codeTokens, List.map_append]

theorem flatMap_states_codeTokens (text : Line) :
    (codeTokens text).flatMap Token.states = List.replicate text.length .normal := by
  induction text with
  | nil => rfl
  | cons character text inductionHypothesis =>
    exact congrArg (State.normal :: ·) inductionHypothesis

theorem flatMap_blanked_codeTokens (text : Line) :
    (codeTokens text).flatMap Token.blanked = text := by
  induction text with
  | nil => rfl
  | cons character text inductionHypothesis => exact congrArg (character :: ·) inductionHypothesis

theorem commentStartFrom_codeTokens (offset : Nat) (text : Line) :
    commentStartFrom offset (codeTokens text) = none := by
  induction text generalizing offset with
  | nil => rfl
  | cons character text inductionHypothesis => exact inductionHypothesis _

/-- Blanking keeps what is code and no more, and nothing in the result is a literal or a comment:
lexed again it is code throughout, and blanked again it stays as it is. -/
theorem codeOnly_keeps_code (text : Line) :
    (codeOnly text).length = (lex text).commentStart.getD text.length ∧
      (∀ offset, (lex text).contextAt offset = .code → (codeOnly text)[offset]? = text[offset]?) ∧
      (∀ offset < (codeOnly text).length, (lex text).contextAt offset ≠ .code →
        (codeOnly text)[offset]? = some ' ') ∧
      lex (codeOnly text) = ⟨List.replicate (codeOnly text).length .normal, none⟩ ∧
      codeOnly (codeOnly text) = codeOnly text := by
  have left (offset : Nat) := getElem?_codeAfter [] text offset
  have again : tokens (codeOnly text) = codeTokens (codeOnly text) :=
    tokensAfter_codeAfter [] text []
  refine ⟨length_codeAfter [] text, fun offset code => ?_, fun offset inside noCode => ?_, ?_, ?_⟩
  · have shown := left offset
    rw [show contextAfter [] text offset = .code from code] at shown
    exact shown
  · have shown := left offset
    have filled : (codeOnly text)[offset]? ≠ none := by
      rw [List.getElem?_eq_getElem inside]
      exact Option.some_ne_none _
    cases context : contextAfter [] text offset with
    | code => exact absurd context noCode
    | literal => rwa [context] at shown
    | comment =>
      rw [context] at shown
      exact absurd shown filled
  · rw [lex, again, flatMap_states_codeTokens, commentStartFrom_codeTokens]
  · rw [codeOnly, again, flatMap_blanked_codeTokens]

end CrateAudit.Rust
