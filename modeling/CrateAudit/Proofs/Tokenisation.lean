/-
This file says what the tokens of a line are without reading it character by character:
five forms of text, of which an earlier one wins over a later one where both fit. A line
can be cut into such tokens in exactly one way, from left to right, and a walk along the
line finds that way: the state and the context of each character are those of the token
that holds it, and a comment starts where the comment token does.
-/

import CrateAudit.Proofs.LineWalk
import Mathlib.Data.List.TakeWhile

namespace CrateAudit.Rust

/-! ### The forms of tokens -/

/-- Whether an odd number of backslashes stands at the end, so that the next character is
escaped. -/
def EndsEscaped (text : Line) : Prop :=
  (text.reverse.takeWhile (· = '\\')).length % 2 = 1

/-- Whether a text goes up to the next closing quote and includes it, or up to the end of the
line where there is none. `closes` says after which texts a quote is a closing one. -/
structure GoesToQuote (closes : Line → Prop) (body rest : Line) : Prop where
  first : ∀ inner, closes inner → inner ++ ['"'] <+: body → inner ++ ['"'] = body
  ends : (∃ inner, closes inner ∧ body = inner ++ ['"']) ∨ rest = []

/-- Whether the last character, or the one before it if it is a `b`, belongs to a name. -/
def EndsInName (before : Line) : Prop :=
  ∃ (front : Line) (character : Char), Text.isWordCharacter character = true ∧
    (before = front ++ [character] ∧ character ≠ 'b' ∨ before = front ++ [character, 'b'])

/-- A character between apostrophes, or an escape up to the first apostrophe that stands three to
eleven places after the opening one. -/
def IsCharacterLiteral (text : Line) : Prop :=
  (∃ character, character ≠ '\\' ∧ text = ['\'', character, '\'']) ∨
    ∃ (escaped : Char) (inner : Line), '\'' ∉ inner ∧ inner.length ≤ 8 ∧
      text = '\'' :: '\\' :: escaped :: (inner ++ ['\''])

namespace TokenKind

/-- Whether a text between two others has the form of a token. -/
def Fits (before text rest : Line) : TokenKind → Prop
  | .comment => ['/', '/'] <+: text ∧ rest = []
  | .rawString => ¬ EndsInName before ∧ ∃ marks body : Line, (∀ mark ∈ marks, mark = '#') ∧
      text = 'r' :: (marks ++ '"' :: body) ∧ GoesToQuote (fun _ => True) body rest
  | .string => ∃ body, text = '"' :: body ∧ GoesToQuote (fun inner => ¬ EndsEscaped inner) body rest
  | .character => IsCharacterLiteral text
  | .code => ∃ character, text = [character]

/-- How many forms are tried before this one. -/
def rank : TokenKind → Nat
  | .comment => 0
  | .rawString => 1
  | .string => 2
  | .character => 3
  | .code => 4

theorem rank_injective {first second : TokenKind} (same : first.rank = second.rank) :
    first = second := by
  cases first <;> cases second <;> first | rfl | cases same

theorem rank_le_code (kind : TokenKind) : kind.rank ≤ TokenKind.code.rank := by
  cases kind <;> decide

/-- Where the characters of such a token lie. -/
def context : TokenKind → Context
  | .comment => .comment
  | .code => .code
  | .rawString | .string | .character => .literal

end TokenKind

/-- Whether a token is the one between two texts: it has its form there, and no text that starts
at the same place has a form that is tried before. -/
structure Token.IsNext (before : Line) (token : Token) (rest : Line) : Prop where
  fits : token.kind.Fits before token.text rest
  first : ∀ (other : TokenKind) (text later : Line), other.rank < token.kind.rank →
    text ++ later = token.text ++ rest → ¬ other.Fits before text later

/-- The ways to cut a text after another one into tokens, from left to right. -/
inductive IsCutInto : Line → Line → List Token → Prop
  | nil (before : Line) : IsCutInto before [] []
  | cons {before rest : Line} {token : Token} {others : List Token} :
    token.IsNext before rest → IsCutInto (before ++ token.text) rest others →
      IsCutInto before (token.text ++ rest) (token :: others)

/-! ### Where quotes close -/

theorem not_endsEscaped_nil : ¬ EndsEscaped [] := by
  simp [EndsEscaped]

/-- Another character in front changes nothing about the end of a text. -/
theorem endsEscaped_cons {character : Char} (plain : character ≠ '\\') (text : Line) :
    EndsEscaped (character :: text) ↔ EndsEscaped text := by
  have same : ((text.reverse ++ [character]).takeWhile (· = '\\')) =
      text.reverse.takeWhile (· = '\\') := by
    rw [List.takeWhile_append]
    split
    · rename_i whole
      rw [List.takeWhile_cons_of_neg (by simpa using plain), List.append_nil]
      exact ((List.takeWhile_prefix _).eq_of_length whole).symm
    · rfl
  rw [EndsEscaped, EndsEscaped, List.reverse_cons, same]

/-- Nor does an escape. -/
theorem endsEscaped_escape (escaped : Char) (text : Line) :
    EndsEscaped ('\\' :: escaped :: text) ↔ EndsEscaped text := by
  rw [EndsEscaped, EndsEscaped, List.reverse_cons, List.reverse_cons, List.append_assoc,
    List.takeWhile_append]
  split
  · rename_i whole
    rw [whole, List.singleton_append, List.takeWhile_cons]
    split <;> simp
  · rfl

variable {closes : Line → Prop}

/-- A text that goes to a quote is determined by the line. -/
theorem GoesToQuote.unique {body rest body' rest' : Line} (goes : GoesToQuote closes body rest)
    (goes' : GoesToQuote closes body' rest') (same : body ++ rest = body' ++ rest') :
    body = body' := by
  have shorter {body rest body' rest' : Line} (goes : GoesToQuote closes body rest)
      (goes' : GoesToQuote closes body' rest') (same : body ++ rest = body' ++ rest')
      (inside : body <+: body') : body = body' := by
    rcases goes.ends with ⟨inner, closing, rfl⟩ | rfl
    · exact goes'.first inner closing inside
    · rw [List.append_nil] at same
      exact inside.eq_of_length_le (by rw [same, List.length_append]; omega)
  rcases List.prefix_or_prefix_of_prefix (List.prefix_append body rest)
    (same ▸ List.prefix_append body' rest') with inside | inside
  · exact shorter goes goes' same inside
  · exact (shorter goes' goes same.symm inside).symm

/-- A quote that closes at once is the whole text. -/
theorem goesToQuote_quote (atOnce : closes []) (rest : Line) : GoesToQuote closes ['"'] rest where
  first inner _ inside := by
    cases inner with
    | nil => rfl
    | cons character inner =>
      have size := inside.length_le
      simp at size
  ends := Or.inl ⟨[], atOnce, rfl⟩

/-- A piece in which no quote closes can be put in front. -/
theorem GoesToQuote.append {body rest : Line} (goes : GoesToQuote closes body rest)
    (piece : Line) (stays : ∀ inner, closes inner → ¬ inner ++ ['"'] <+: piece)
    (shifts : ∀ inner, closes (piece ++ inner) ↔ closes inner) :
    GoesToQuote closes (piece ++ body) rest where
  first inner closing inside := by
    have longer : piece <+: inner := by
      rcases List.prefix_or_prefix_of_prefix (List.prefix_append piece body) inside with
        within | within
      · refine (List.prefix_concat_iff.mp within).resolve_left fun same => ?_
        exact stays inner closing (same ▸ List.prefix_rfl)
      · exact absurd within (stays inner closing)
    obtain ⟨later, rfl⟩ := longer
    rw [List.append_assoc] at inside ⊢
    rw [goes.first later ((shifts later).mp closing) ((List.prefix_append_right_inj _).mp inside)]
  ends := by
    rcases goes.ends with ⟨inner, closing, rfl⟩ | none
    · exact Or.inl ⟨piece ++ inner, (shifts inner).mpr closing, (List.append_assoc _ _ _).symm⟩
    · exact Or.inr none

theorem goesToQuote_nil : GoesToQuote closes [] [] where
  first inner _ inside := by
    have size := inside.length_le
    simp at size
  ends := Or.inr rfl

/-- No quote stands in another character. -/
theorem not_prefix_singleton {character : Char} (other : character ≠ '"') (inner : Line) :
    ¬ inner ++ ['"'] <+: [character] := by
  intro inside
  cases inner with
  | nil => exact other (List.cons_prefix_cons.mp inside).1.symm
  | cons _ inner =>
    have size := inside.length_le
    simp at size

theorem goesToQuote_throughQuote (line : Line) :
    GoesToQuote (fun _ => True) (throughQuote line).1 (throughQuote line).2 := by
  fun_induction throughQuote line with
  | case1 => exact goesToQuote_nil
  | case2 rest => exact goesToQuote_quote trivial rest
  | case3 character rest other later inductionHypothesis =>
    exact inductionHypothesis.append [character] (fun inner _ => not_prefix_singleton other inner)
      fun _ => Iff.rfl

theorem goesToQuote_throughPlainQuote (line : Line) :
    GoesToQuote (fun inner => ¬ EndsEscaped inner) (throughPlainQuote line).1
      (throughPlainQuote line).2 := by
  fun_induction throughPlainQuote line with
  | case1 => exact goesToQuote_nil
  | case2 escaped rest later inductionHypothesis =>
    refine inductionHypothesis.append ['\\', escaped] (fun inner plain inside => ?_)
      fun inner => not_congr (endsEscaped_escape escaped inner)
    rcases inner with - | ⟨character, - | ⟨_, inner⟩⟩
    · exact absurd (List.cons_prefix_cons.mp inside).1 (by decide)
    · rw [(List.cons_prefix_cons.mp inside).1] at plain
      exact plain rfl
    · have size := inside.length_le
      simp at size
  | case3 rest => exact goesToQuote_quote not_endsEscaped_nil rest
  | case4 character rest noEscape other later inductionHypothesis =>
    by_cases escape : character = '\\'
    · -- A backslash at the end of the line escapes nothing.
      cases rest with
      | nil =>
        exact ⟨fun inner _ inside => absurd inside (not_prefix_singleton other inner),
          Or.inr rfl⟩
      | cons escaped rest => exact (noEscape escaped rest escape rfl).elim
    · exact inductionHypothesis.append [character] (fun inner _ => not_prefix_singleton other inner)
        fun inner => not_congr (endsEscaped_cons escape inner)

/-! ### What each form begins with -/

theorem endsInName_reverse (before : Line) :
    EndsInName before.reverse ↔ (decisive? before).any Text.isWordCharacter = true := by
  constructor
  · rintro ⟨front, character, word, ⟨shape, other⟩ | shape⟩
    · rw [List.reverse_eq_iff, List.reverse_append] at shape
      rw [shape, List.reverse_singleton, List.singleton_append, Walk.decisive?_cons, if_neg other]
      exact word
    · rw [List.reverse_eq_iff, List.reverse_append] at shape
      rw [shape]
      exact word
  · intro ends
    cases before with
    | nil => cases ends
    | cons last before =>
      rw [Walk.decisive?_cons] at ends
      split at ends
      · rename_i skipped
        cases before with
        | nil => cases ends
        | cons character before =>
          exact ⟨before.reverse, character, ends, Or.inr (by simp [skipped])⟩
      · rename_i other
        exact ⟨before.reverse, last, ends, Or.inl ⟨List.reverse_cons, other⟩⟩

/-- An `r` may open a raw string exactly where no name ends before it. -/
theorem mayOpenRaw_reverse (before : Line) :
    mayOpenRaw before.reverse = true ↔ ¬ EndsInName before := by
  have ends := endsInName_reverse before.reverse
  rw [List.reverse_reverse] at ends
  rw [ends, mayOpenRaw, Bool.not_eq_true', Bool.not_eq_true]

theorem throughApostrophe?_append_cons {count : Nat} {inner : Line} (plain : '\'' ∉ inner)
    (near : inner.length < count) (rest : Line) :
    throughApostrophe? count (inner ++ '\'' :: rest) = some (inner ++ ['\''], rest) := by
  induction inner generalizing count with
  | nil =>
    obtain ⟨count, rfl⟩ := Nat.exists_eq_succ_of_ne_zero (Nat.ne_of_gt near)
    rfl
  | cons character inner inductionHypothesis =>
    obtain ⟨count, rfl⟩ := Nat.exists_eq_succ_of_ne_zero (Nat.ne_of_gt (Nat.zero_lt_of_lt near))
    rw [List.mem_cons, not_or] at plain
    rw [List.cons_append, throughApostrophe?, if_neg (Ne.symm plain.1),
      inductionHypothesis plain.2 (Nat.lt_of_succ_lt_succ near)]
    rfl

theorem exists_of_throughApostrophe? {count : Nat} {line : Line} {parts : Line × Line}
    (found : throughApostrophe? count line = some parts) :
    ∃ inner, '\'' ∉ inner ∧ inner.length < count ∧ parts.1 = inner ++ ['\''] := by
  induction count generalizing line parts with
  | zero => cases found
  | succ count inductionHypothesis =>
    cases line with
    | nil => cases found
    | cons character rest =>
      rw [throughApostrophe?] at found
      split at found
      · cases found
        exact ⟨[], List.not_mem_nil, Nat.succ_pos count, rfl⟩
      · rename_i other
        obtain ⟨later, foundLater, rfl⟩ := Option.map_eq_some_iff.mp found
        obtain ⟨inner, plain, near, shape⟩ := inductionHypothesis foundLater
        refine ⟨character :: inner, ?_, Nat.succ_lt_succ near, by rw [shape]; rfl⟩
        exact List.not_mem_cons_of_ne_of_not_mem (Ne.symm other) plain

/-- What a character literal is read as has its form. -/
theorem isCharacterLiteral_of_characterLiteral? {rest : Line} {parts : Line × Line}
    (found : characterLiteral? rest = some parts) : IsCharacterLiteral ('\'' :: parts.1) := by
  unfold characterLiteral? at found
  split at found
  · rename_i escaped rest
    obtain ⟨later, foundLater, rfl⟩ := Option.map_eq_some_iff.mp found
    obtain ⟨inner, plain, near, shape⟩ := exists_of_throughApostrophe? foundLater
    exact Or.inr ⟨escaped, inner, plain, by omega, by rw [shape]⟩
  · split at found
    · rename_i character _ _ _ both
      cases found
      exact Or.inl ⟨character, both.1, rfl⟩
    · cases found
  · cases found

/-- A text with the form of a character literal is read as one. -/
theorem characterLiteral?_of_isCharacterLiteral {text : Line} (literal : IsCharacterLiteral text)
    (later : Line) : ∃ tail, text = '\'' :: tail ∧
      characterLiteral? (tail ++ later) = some (tail, later) := by
  rcases literal with ⟨character, plain, rfl⟩ | ⟨escaped, inner, plain, near, rfl⟩
  · refine ⟨_, rfl, ?_⟩
    rw [List.cons_append, List.cons_append, characterLiteral?, if_pos ⟨plain, rfl⟩]
    · rfl
    · exact plain
  · refine ⟨_, rfl, ?_⟩
    have read := throughApostrophe?_append_cons plain (show inner.length < 9 by omega) later
    rw [List.cons_append, List.cons_append, List.append_assoc, List.singleton_append,
      characterLiteral?, read]
    rfl

section

variable {before text later rest : Line} {first : Char}

/-- What begins with a comment begins with two slashes. -/
theorem starts_of_fits_comment (fits : TokenKind.comment.Fits before text later)
    (whole : text ++ later = first :: rest) : first = '/' ∧ rest.head? = some '/' := by
  obtain ⟨⟨tail, rfl⟩, -⟩ := fits
  cases whole
  exact ⟨rfl, rfl⟩

theorem starts_of_fits_rawString (fits : TokenKind.rawString.Fits before text later)
    (whole : text ++ later = first :: rest) :
    (first = 'r' ∧ mayOpenRaw before.reverse = true) ∧ (rawString? rest).isSome = true := by
  obtain ⟨noName, marks, body, all, rfl, -⟩ := fits
  rw [List.cons_append, List.cons_eq_cons] at whole
  obtain ⟨rfl, rfl⟩ := whole
  refine ⟨⟨rfl, (mayOpenRaw_reverse before).mpr noName⟩, ?_⟩
  rw [Walk.isSome_rawString?, List.append_assoc,
    List.dropWhile_append_of_pos fun mark member => by simpa using all mark member]
  rfl

theorem starts_of_fits_string (fits : TokenKind.string.Fits before text later)
    (whole : text ++ later = first :: rest) : first = '"' := by
  obtain ⟨body, rfl, -⟩ := fits
  exact (List.cons_eq_cons.mp whole).1.symm

theorem starts_of_fits_character (fits : TokenKind.character.Fits before text later)
    (whole : text ++ later = first :: rest) :
    first = '\'' ∧ (characterLiteral? rest).isSome = true := by
  obtain ⟨tail, rfl, read⟩ := characterLiteral?_of_isCharacterLiteral fits later
  rw [List.cons_append, List.cons_eq_cons] at whole
  obtain ⟨rfl, rfl⟩ := whole
  exact ⟨rfl, by rw [read]; rfl⟩

/-- What is read as a raw string has its form. -/
theorem fits_rawString (noName : ¬ EndsInName before) {parts : Line × Line}
    (found : rawString? rest = some parts) :
    TokenKind.rawString.Fits before ('r' :: parts.1) parts.2 := by
  rw [rawString?] at found
  split at found
  · rename_i body shape
    cases found
    refine ⟨noName, _, _, fun mark member => ?_, rfl, goesToQuote_throughQuote body⟩
    simpa using List.mem_takeWhile_imp member
  · cases found

/-- A text that has a form is the next token where nothing begins as an earlier form does. -/
theorem isNext_of_fits (kind : TokenKind) (fits : kind.Fits before text later)
    (whole : text ++ later = first :: rest)
    (noComment : 0 < kind.rank → ¬ (first = '/' ∧ rest.head? = some '/'))
    (noRawString : 1 < kind.rank →
      ¬ ((first = 'r' ∧ mayOpenRaw before.reverse = true) ∧ (rawString? rest).isSome = true))
    (noString : 2 < kind.rank → first ≠ '"')
    (noCharacter : 3 < kind.rank → ¬ (first = '\'' ∧ (characterLiteral? rest).isSome = true)) :
    Token.IsNext before ⟨kind, text⟩ later where
  fits := fits
  first other text' later' earlier same fits' := by
    have same : text' ++ later' = first :: rest := same.trans whole
    cases other with
    | comment => exact noComment earlier (starts_of_fits_comment fits' same)
    | rawString => exact noRawString earlier (starts_of_fits_rawString fits' same)
    | string => exact noString earlier (starts_of_fits_string fits' same)
    | character => exact noCharacter earlier (starts_of_fits_character fits' same)
    | code => exact absurd (Nat.lt_of_lt_of_le earlier kind.rank_le_code) (Nat.lt_irrefl _)

theorem isNext_comment (before tail : Line) :
    Token.IsNext before ⟨.comment, '/' :: '/' :: tail⟩ [] where
  fits := ⟨List.prefix_append ['/', '/'] tail, rfl⟩
  first other _ _ earlier := absurd earlier (Nat.not_lt_zero other.rank)

theorem isNext_rawString (noName : mayOpenRaw before.reverse = true) {parts : Line × Line}
    (found : rawString? rest = some parts) :
    Token.IsNext before ⟨.rawString, 'r' :: parts.1⟩ parts.2 :=
  isNext_of_fits .rawString (fits_rawString ((mayOpenRaw_reverse before).mp noName) found)
    (congrArg ('r' :: ·) (rawString?_append found))
    (fun _ both => absurd both.1 (by decide)) (fun earlier => absurd earlier (by decide))
    (fun earlier => absurd earlier (by decide)) fun earlier => absurd earlier (by decide)

theorem isNext_string (before rest : Line) :
    Token.IsNext before ⟨.string, '"' :: (throughPlainQuote rest).1⟩ (throughPlainQuote rest).2 :=
  isNext_of_fits .string ⟨_, rfl, goesToQuote_throughPlainQuote rest⟩
    (congrArg ('"' :: ·) (throughPlainQuote_append rest))
    (fun _ both => absurd both.1 (by decide)) (fun _ both => absurd both.1.1 (by decide))
    (fun earlier => absurd earlier (by decide)) fun earlier => absurd earlier (by decide)

theorem isNext_character {parts : Line × Line} (found : characterLiteral? rest = some parts) :
    Token.IsNext before ⟨.character, '\'' :: parts.1⟩ parts.2 :=
  isNext_of_fits .character (isCharacterLiteral_of_characterLiteral? found)
    (congrArg ('\'' :: ·) (characterLiteral?_append found))
    (fun _ both => absurd both.1 (by decide)) (fun _ both => absurd both.1.1 (by decide))
    (fun _ => by decide) fun earlier => absurd earlier (by decide)

/-- The token that is read is the next one. -/
theorem isNext_nextToken (before : Line) (first : Char) (rest : Line) :
    (nextToken before.reverse first rest).1.IsNext before
      (nextToken before.reverse first rest).2 := by
  rw [nextToken]
  by_cases comment : first = '/' ∧ rest.head? = some '/'
  · rw [if_pos comment]
    obtain ⟨rfl, slash⟩ := comment
    obtain ⟨tail, rfl⟩ := List.head?_eq_some_iff.mp slash
    exact isNext_comment before tail
  rw [if_neg comment]
  have code (noRawString : ¬ ((first = 'r' ∧ mayOpenRaw before.reverse = true) ∧
        (rawString? rest).isSome = true)) (noString : first ≠ '"')
      (noCharacter : ¬ (first = '\'' ∧ (characterLiteral? rest).isSome = true)) :
      Token.IsNext before ⟨.code, [first]⟩ rest :=
    isNext_of_fits .code ⟨first, rfl⟩ rfl (fun _ => comment) (fun _ => noRawString)
      (fun _ => noString) fun _ => noCharacter
  by_cases raw : first = 'r' ∧ mayOpenRaw before.reverse = true
  · rw [if_pos raw]
    cases found : rawString? rest with
    | some parts =>
      rw [raw.1]
      exact isNext_rawString raw.2 found
    | none => exact code (by simp [found]) (by simp [raw.1]) (by simp [raw.1])
  rw [if_neg raw]
  by_cases quote : first = '"'
  · rw [if_pos quote, quote]
    exact isNext_string before rest
  rw [if_neg quote]
  by_cases apostrophe : first = '\''
  · rw [if_pos apostrophe]
    cases found : characterLiteral? rest with
    | some parts =>
      rw [apostrophe]
      exact isNext_character found
    | none => exact code (fun both => raw both.1) quote (by simp [found])
  · rw [if_neg apostrophe]
    exact code (fun both => raw both.1) quote fun both => apostrophe both.1

/-! ### The one way to cut a line -/

/-- Texts that have the same form at the same place are the same. -/
theorem TokenKind.Fits.unique {kind : TokenKind} {text' later' : Line}
    (fits : kind.Fits before text later) (fits' : kind.Fits before text' later')
    (same : text ++ later = text' ++ later') : text = text' := by
  cases kind with
  | comment =>
    rw [fits.2, fits'.2, List.append_nil, List.append_nil] at same
    exact same
  | rawString =>
    obtain ⟨-, marks, body, all, rfl, goes⟩ := fits
    obtain ⟨-, marks', body', all', rfl, goes'⟩ := fits'
    have upToQuote {marks : Line} (all : ∀ mark ∈ marks, mark = '#') (rest : Line) :
        (marks ++ '"' :: rest).takeWhile (· = '#') = marks := by
      rw [List.takeWhile_append_of_pos fun mark member => by simpa using all mark member]
      exact List.append_nil marks
    simp only [List.cons_append, List.append_assoc, List.cons.injEq, true_and] at same
    have marks_eq := congrArg (List.takeWhile (· = '#')) same
    rw [upToQuote all, upToQuote all'] at marks_eq
    subst marks_eq
    rw [goes.unique goes' (List.cons_eq_cons.mp (List.append_cancel_left same)).2]
  | string =>
    obtain ⟨body, rfl, goes⟩ := fits
    obtain ⟨body', rfl, goes'⟩ := fits'
    rw [goes.unique goes' (List.cons_eq_cons.mp same).2]
  | character =>
    obtain ⟨tail, rfl, read⟩ := characterLiteral?_of_isCharacterLiteral fits later
    obtain ⟨tail', rfl, read'⟩ := characterLiteral?_of_isCharacterLiteral fits' later'
    have rest : tail ++ later = tail' ++ later' := (List.cons_eq_cons.mp same).2
    rw [rest, read', Option.some_inj] at read
    rw [(Prod.mk.inj read).1]
  | code =>
    obtain ⟨character, rfl⟩ := fits
    obtain ⟨character', rfl⟩ := fits'
    rw [(List.cons_eq_cons.mp same).1]

/-- Only one token can come next. -/
theorem Token.IsNext.unique {token token' : Token} {later' : Line}
    (isNext : token.IsNext before later) (isNext' : token'.IsNext before later')
    (same : token.text ++ later = token'.text ++ later') : token = token' ∧ later = later' := by
  have kind : token.kind = token'.kind := by
    refine TokenKind.rank_injective (Nat.le_antisymm ?_ ?_)
    · exact Nat.le_of_not_lt fun earlier => isNext.first _ _ _ earlier same.symm isNext'.fits
    · exact Nat.le_of_not_lt fun earlier => isNext'.first _ _ _ earlier same isNext.fits
  have text : token.text = token'.text := isNext.fits.unique (kind ▸ isNext'.fits) same
  refine ⟨?_, List.append_cancel_left (text ▸ same)⟩
  cases token
  cases token'
  cases kind
  cases text
  rfl

theorem TokenKind.Fits.text_ne_nil {kind : TokenKind} (fits : kind.Fits before text later) :
    text ≠ [] := by
  rintro rfl
  cases kind with
  | comment => exact absurd (List.prefix_nil.mp fits.1) (by decide)
  | rawString =>
    obtain ⟨-, _, _, -, impossible, -⟩ := fits
    cases impossible
  | string =>
    obtain ⟨_, impossible, -⟩ := fits
    cases impossible
  | character =>
    obtain ⟨_, impossible, -⟩ := characterLiteral?_of_isCharacterLiteral fits later
    cases impossible
  | code =>
    obtain ⟨_, impossible⟩ := fits
    cases impossible

/-- The next token is the one that is read. -/
theorem Token.IsNext.eq_nextToken {token : Token} (isNext : token.IsNext before later)
    (whole : token.text ++ later = first :: rest) :
    nextToken before.reverse first rest = (token, later) := by
  have read := nextToken_append before.reverse first rest
  obtain ⟨same, same'⟩ := (isNext_nextToken before first rest).unique isNext
    (read.trans whole.symm)
  exact Prod.ext same same'

/-- The tokens that are read are a way to cut a line. -/
theorem isCutInto_tokensAfter (before line : Line) :
    IsCutInto before line (tokensAfter before.reverse line) := by
  match line with
  | [] =>
    rw [tokensAfter]
    exact .nil before
  | first :: rest =>
    have isNext := isNext_nextToken before first rest
    have shorter := nextToken_length before.reverse first rest
    have later := isCutInto_tokensAfter
      (before ++ (nextToken before.reverse first rest).1.text)
      (nextToken before.reverse first rest).2
    rw [List.reverse_append] at later
    have cut := IsCutInto.cons isNext later
    rw [nextToken_append] at cut
    rw [tokensAfter]
    exact cut
  termination_by line.length
  decreasing_by
    simp only [List.length_cons]
    omega

/-- They are the only way. -/
theorem isCutInto_iff {before line : Line} {found : List Token} :
    IsCutInto before line found ↔ found = tokensAfter before.reverse line := by
  constructor
  · intro cut
    induction cut with
    | nil => rw [tokensAfter]
    | cons isNext _ inductionHypothesis =>
      rename_i before rest token others _
      obtain ⟨first, tail, shape⟩ := List.exists_cons_of_ne_nil isNext.fits.text_ne_nil
      have whole : token.text ++ rest = first :: (tail ++ rest) := by rw [shape]; rfl
      rw [whole, tokensAfter, isNext.eq_nextToken whole, inductionHypothesis, List.reverse_append]
  · rintro rfl
    exact isCutInto_tokensAfter before line

end

/-! ### What a walk along the line finds -/

/-- The token that holds the character at an offset. -/
def tokenAt? : List Token → Nat → Option Token
  | [], _ => none
  | token :: rest, offset =>
    if offset < token.text.length then some token else tokenAt? rest (offset - token.text.length)

/-- Whether a lexing says of each character what the token that holds it is, and where the
comment starts, which is the last token. -/
structure Lexing.Describes (lexing : Lexing) (found : List Token) : Prop where
  states : ∀ offset, lexing.states[offset]? = (tokenAt? found offset).map (·.kind.state)
  contexts : ∀ offset token, tokenAt? found offset = some token →
    lexing.contextAt offset = token.kind.context
  commentStart : ∀ start, lexing.commentStart = some start ↔
    ∃ before token, found = before ++ [token] ∧ token.kind = .comment ∧
      start = (before.flatMap Token.text).length

theorem getElem?_flatMap_states (found : List Token) (offset : Nat) :
    (found.flatMap Token.states)[offset]? = (tokenAt? found offset).map (·.kind.state) := by
  induction found generalizing offset with
  | nil => rfl
  | cons token rest inductionHypothesis =>
    have size : token.states.length = token.text.length := List.length_replicate
    rw [List.flatMap_cons, tokenAt?]
    split
    · rename_i inside
      rw [List.getElem?_append_left (size ▸ inside), Token.states, List.getElem?_replicate,
        if_pos inside]
      rfl
    · rename_i outside
      rw [List.getElem?_append_right (by omega), size, inductionHypothesis]

theorem contextAfter_of_tokenAt? {before line : Line} {offset : Nat} {token : Token}
    (holds : tokenAt? (tokensAfter before line) offset = some token) :
    contextAfter before line offset = token.kind.context := by
  fun_induction tokensAfter before line generalizing offset with
  | case1 => cases holds
  | case2 before first rest step =>
    rename_i inductionHypothesis
    by_cases comment : step.1.kind = .comment
    · have none : step.2 = [] := nextToken_snd_of_comment comment
      rw [contextAfter_of_comment comment]
      rw [tokenAt?] at holds
      split at holds
      · cases holds
        rw [comment]
        rfl
      · rw [none, tokensAfter] at holds
        cases holds
    · rw [contextAfter_cons comment]
      rw [tokenAt?] at holds
      split at holds
      · rename_i inside
        cases holds
        rw [if_pos inside]
        cases kind : step.1.kind <;> first | rfl | exact absurd kind comment
      · rename_i outside
        rw [if_neg outside]
        exact inductionHypothesis holds

theorem commentStartFrom_eq_some_iff (before line : Line) (offset start : Nat) :
    commentStartFrom offset (tokensAfter before line) = some start ↔
      ∃ earlier token, tokensAfter before line = earlier ++ [token] ∧ token.kind = .comment ∧
        start = offset + (earlier.flatMap Token.text).length := by
  fun_induction tokensAfter before line generalizing offset with
  | case1 => simp [commentStartFrom]
  | case2 before first rest step =>
    rename_i inductionHypothesis
    by_cases comment : step.1.kind = .comment
    · have none : step.2 = [] := nextToken_snd_of_comment comment
      rw [none, tokensAfter, Walk.commentStartFrom_of_comment comment, Option.some_inj]
      constructor
      · rintro rfl
        exact ⟨[], step.1, rfl, comment, rfl⟩
      · rintro ⟨earlier, token, shape, -, rfl⟩
        cases earlier with
        | nil => rfl
        | cons _ earlier => simp at shape
    · rw [Walk.commentStartFrom_of_ne comment, inductionHypothesis]
      constructor
      · rintro ⟨earlier, token, shape, kind, rfl⟩
        refine ⟨step.1 :: earlier, token, by rw [shape]; rfl, kind, ?_⟩
        rw [List.flatMap_cons, List.length_append, Nat.add_assoc]
      · rintro ⟨earlier, token, shape, kind, rfl⟩
        cases earlier with
        | nil =>
          rw [List.nil_append, List.cons.injEq] at shape
          exact absurd (shape.1 ▸ kind) comment
        | cons _ earlier =>
          rw [List.cons_append, List.cons.injEq] at shape
          obtain ⟨rfl, shape⟩ := shape
          refine ⟨earlier, token, shape, kind, ?_⟩
          rw [List.flatMap_cons, List.length_append, Nat.add_assoc]

theorem describes_lex (line : Line) : (lex line).Describes (tokens line) where
  states offset := getElem?_flatMap_states (tokens line) offset
  contexts offset token holds := contextAfter_of_tokenAt? holds
  commentStart start := by
    have starts := commentStartFrom_eq_some_iff [] line 0 start
    simp only [Nat.zero_add] at starts
    exact starts

/-- A line can be cut into tokens in exactly one way. A walk along it ends, asks for no character
that the line does not have, and finds the states, the contexts and the comment of these tokens. -/
theorem lexing_of_tokenisation (line : Line) :
    (∃! found, IsCutInto [] line found) ∧
      ∃ lexing, Walk.lex? line = some lexing ∧ lex line = lexing ∧
        lexing.states.length = line.length ∧
        ∀ found, IsCutInto [] line found → lexing.Describes found := by
  have cut {found : List Token} : IsCutInto [] line found ↔ found = tokens line := isCutInto_iff
  refine ⟨⟨tokens line, cut.mpr rfl, fun found own => cut.mp own⟩,
    lex line, Walk.lex?_eq line, rfl, length_lex_states line, fun found own => ?_⟩
  rw [cut.mp own]
  exact describes_lex line

end CrateAudit.Rust
