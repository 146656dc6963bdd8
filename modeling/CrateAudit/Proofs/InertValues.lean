/-
This file compares the discarded bindings that are removed with those that may be: the ones
whose value is inert, a path or one literal. A binding is removed if no parenthesis, dot or
exclamation mark stands in the code of its value. That leaves out calls, fields and macros,
but not the other ways to run code or to leave a function: `?`, an index, an operator, a
block or `return`.
-/

import CrateAudit.Proofs.Discards
import CrateAudit.Proofs.Tokenisation

namespace CrateAudit.Fix

open Regex

/-! ### Inert values -/

/-- Words that name nothing. -/
def reservedWords : List String :=
  ["_", "abstract", "as", "async", "await", "become", "box", "break", "const", "continue", "do",
    "dyn", "else", "enum", "extern", "final", "fn", "for", "gen", "if", "impl", "in", "let", "loop",
    "macro", "match", "mod", "move", "mut", "override", "priv", "pub", "ref", "return", "static",
    "struct", "trait", "try", "type", "typeof", "unsafe", "unsized", "use", "virtual", "where",
    "while", "yield"]

/-- The rest of a block comment up to where it closes. Block comments nest. -/
inductive ClosesComment : Line → Prop where
  | here : ClosesComment ['*', '/']
  | nested {inner rest : Line} (closes : ClosesComment inner) (later : ClosesComment rest) :
    ClosesComment ('/' :: '*' :: (inner ++ rest))
  | character {character : Char} {rest : Line} (noOpener : ¬ ['/', '*'] <+: character :: rest)
    (noCloser : ¬ ['*', '/'] <+: character :: rest) (later : ClosesComment rest) :
    ClosesComment (character :: rest)

/-- What stands between the parts of a value: blanks and block comments. -/
inductive IsSpacing : Line → Prop where
  | none : IsSpacing []
  | blank {character : Char} {rest : Line} (isBlank : Text.isBlank character = true)
    (later : IsSpacing rest) : IsSpacing (character :: rest)
  | comment {inner rest : Line} (closes : ClosesComment inner) (later : IsSpacing rest) :
    IsSpacing ('/' :: '*' :: (inner ++ rest))

/-- A word, whose first character has a property. -/
structure IsWord (starts : Char → Bool) (text : Line) : Prop where
  word : ∀ character ∈ text, Text.isWordCharacter character = true
  first : text.head?.any starts = true

/-- A name: a word that is not reserved, or a raw one. -/
inductive IsName : Line → Prop where
  | word {text : Line} (isWord : IsWord (!Text.isDecimalDigit ·) text)
    (free : text ∉ reservedWords.map String.toList) : IsName text
  | raw {text : Line} (isWord : IsWord (!Text.isDecimalDigit ·) text) : IsName ('r' :: '#' :: text)

/-- Names joined by double colons, and possibly one in front. -/
inductive IsPath : Line → Prop where
  | name {name : Line} (isName : IsName name) : IsPath name
  | absolute {spacing path : Line} (spaces : IsSpacing spacing) (isPath : IsPath path) :
    IsPath (':' :: ':' :: (spacing ++ path))
  | within {name before after path : Line} (isName : IsName name) (spaces : IsSpacing before)
    (spaces' : IsSpacing after) (isPath : IsPath path) :
    IsPath (name ++ before ++ ':' :: ':' :: (after ++ path))

/-- Decimal digits, with underscores between them. -/
structure IsDigits (text : Line) : Prop where
  digit : ∀ character ∈ text, character.isDigit = true ∨ character = '_'
  first : text.head?.any Char.isDigit = true

/-- A number without a sign: an integer, a fraction, or a decimal with a signed exponent. -/
inductive IsNumber : Line → Prop where
  | integer {text : Line} (isWord : IsWord Char.isDigit text) : IsNumber text
  | fraction {whole part : Line} (digits : IsDigits whole)
    (rest : part = [] ∨ IsWord Char.isDigit part) : IsNumber (whole ++ '.' :: part)
  | scaled {whole part exponent : Line} {mark sign : Char} (digits : IsDigits whole)
    (rest : part = [] ∨ ∃ decimals, IsDigits decimals ∧ part = '.' :: decimals)
    (isMark : mark = 'e' ∨ mark = 'E') (isSign : sign = '+' ∨ sign = '-')
    (isWord : IsWord Char.isDigit exponent) : IsNumber (whole ++ part ++ mark :: sign :: exponent)

/-- A single literal. Those with quotes may have a letter or two in front. -/
inductive IsLiteral : Line → Prop where
  | number {text : Line} (isNumber : IsNumber text) : IsLiteral text
  | negative {text : Line} (isNumber : IsNumber text) : IsLiteral ('-' :: text)
  | character {letters : Line} {own : Char} (known : letters ∈ [[], ['b']])
    (plain : own ≠ '\\' ∧ own ≠ '\'') : IsLiteral (letters ++ ['\'', own, '\''])
  | escape {letters escaped : Line} {first : Char} (known : letters ∈ [[], ['b']])
    (closed : '\'' ∉ escaped) :
    IsLiteral (letters ++ '\'' :: '\\' :: first :: (escaped ++ ['\'']))
  | text {letters body : Line} (known : letters ∈ [[], ['b'], ['c']])
    (closed : ∀ rest, Rust.TokenKind.string.Fits [] ('"' :: body) rest) :
    IsLiteral (letters ++ '"' :: body)
  | rawText {letters marks body : Line} (known : letters ∈ [['r'], ['b', 'r'], ['c', 'r']])
    (isMark : ∀ mark ∈ marks, mark = '#') (closed : ¬ '"' :: marks <:+: body) :
    IsLiteral (letters ++ marks ++ '"' :: (body ++ '"' :: marks))

/-- A value that runs no code: a path or a literal. `true` and `false` are among the names. -/
def IsInert (value : Line) : Prop :=
  ∃ before atom after, IsSpacing before ∧ IsSpacing after ∧ (IsPath atom ∨ IsLiteral atom) ∧
    value = before ++ (atom ++ after)

/-- A blank, a character of a word, or one that holds names and numbers together. -/
def IsPlain (character : Char) : Prop :=
  Text.isBlank character = true ∨ Text.isWordCharacter character = true ∨
    character ∈ [':', '#', '.', '+', '-']

theorem isWordCharacter_of_isDigit {character : Char} (digit : character.isDigit = true) :
    Text.isWordCharacter character = true := by
  have ascii : character.val < 0x80 := by
    simp only [Char.isDigit, Bool.and_eq_true, decide_eq_true_eq] at digit
    exact UInt32.lt_of_le_of_lt digit.2 (by decide)
  rw [Text.isWordCharacter, Text.isAlphanumeric, if_pos ascii, Char.isAlphanum, digit,
    Bool.or_true, Bool.or_true]

variable {text : Line}

theorem IsSpacing.plain (spaces : IsSpacing text) (noComment : '/' ∉ text) :
    ∀ character ∈ text, IsPlain character := by
  induction spaces with
  | none => exact fun _ member => absurd member List.not_mem_nil
  | blank isBlank _ inductionHypothesis =>
    rw [List.mem_cons, not_or] at noComment
    exact List.forall_mem_cons.mpr ⟨Or.inl isBlank, inductionHypothesis noComment.2⟩
  | comment => exact absurd List.mem_cons_self noComment

theorem IsWord.plain {starts : Char → Bool} (isWord : IsWord starts text) :
    ∀ character ∈ text, IsPlain character :=
  fun character member => Or.inr (Or.inl (isWord.word character member))

theorem IsDigits.plain (digits : IsDigits text) : ∀ character ∈ text, IsPlain character := by
  intro character member
  rcases digits.digit character member with digit | rfl
  · exact Or.inr (Or.inl (isWordCharacter_of_isDigit digit))
  · exact Or.inr (Or.inl rfl)

/-- What holds names and numbers together may be put between plain texts. -/
theorem isPlain_joint {character : Char} (joint : character ∈ [':', '#', '.', '+', '-']) :
    IsPlain character :=
  Or.inr (Or.inr joint)

theorem IsName.plain (isName : IsName text) : ∀ character ∈ text, IsPlain character := by
  cases isName with
  | word isWord => exact isWord.plain
  | raw isWord =>
    exact List.forall_mem_cons.mpr ⟨Or.inr (Or.inl (by decide)),
      List.forall_mem_cons.mpr ⟨isPlain_joint (by decide), isWord.plain⟩⟩

theorem IsPath.plain (isPath : IsPath text) (noComment : '/' ∉ text) :
    ∀ character ∈ text, IsPlain character := by
  have colon : IsPlain ':' := isPlain_joint (by decide)
  induction isPath with
  | name isName => exact isName.plain
  | absolute spaces _ inductionHypothesis =>
    simp only [List.mem_cons, List.mem_append, not_or] at noComment
    obtain ⟨-, -, inSpaces, inPath⟩ := noComment
    exact List.forall_mem_cons.mpr ⟨colon, List.forall_mem_cons.mpr ⟨colon,
      List.forall_mem_append.mpr ⟨spaces.plain inSpaces, inductionHypothesis inPath⟩⟩⟩
  | within isName spaces spaces' _ inductionHypothesis =>
    simp only [List.mem_cons, List.mem_append, not_or] at noComment
    obtain ⟨⟨-, inBefore⟩, -, -, inAfter, inPath⟩ := noComment
    exact List.forall_mem_append.mpr
      ⟨List.forall_mem_append.mpr ⟨isName.plain, spaces.plain inBefore⟩,
        List.forall_mem_cons.mpr ⟨colon, List.forall_mem_cons.mpr ⟨colon,
          List.forall_mem_append.mpr ⟨spaces'.plain inAfter, inductionHypothesis inPath⟩⟩⟩⟩

theorem IsNumber.plain (isNumber : IsNumber text) : ∀ character ∈ text, IsPlain character := by
  have point : IsPlain '.' := isPlain_joint (by decide)
  cases isNumber with
  | integer isWord => exact isWord.plain
  | fraction digits rest =>
    refine List.forall_mem_append.mpr ⟨digits.plain, List.forall_mem_cons.mpr ⟨point, ?_⟩⟩
    rcases rest with rfl | isWord
    · exact fun _ member => absurd member List.not_mem_nil
    · exact isWord.plain
  | scaled digits rest isMark isSign isWord =>
    refine List.forall_mem_append.mpr ⟨List.forall_mem_append.mpr ⟨digits.plain, ?_⟩,
      List.forall_mem_cons.mpr ⟨?_, List.forall_mem_cons.mpr ⟨?_, isWord.plain⟩⟩⟩
    · rcases rest with rfl | ⟨decimals, digits', rfl⟩
      · exact fun _ member => absurd member List.not_mem_nil
      · exact List.forall_mem_cons.mpr ⟨point, digits'.plain⟩
    · rcases isMark with rfl | rfl <;> exact Or.inr (Or.inl (by decide))
    · rcases isSign with rfl | rfl <;> exact isPlain_joint (by decide)

/-- Without quotes and comments, a value is inert only if it is made of words and of what holds
them together: it has no other operator, no bracket, no brace and no question mark. -/
theorem IsInert.plain (inert : IsInert text) (noQuote : '"' ∉ text) (noApostrophe : '\'' ∉ text)
    (noComment : '/' ∉ text) : ∀ character ∈ text, IsPlain character := by
  obtain ⟨before, atom, after, spaces, spaces', isAtom, rfl⟩ := inert
  simp only [List.mem_append, not_or] at noQuote noApostrophe noComment
  refine List.forall_mem_append.mpr ⟨spaces.plain noComment.1,
    List.forall_mem_append.mpr ⟨?_, spaces'.plain noComment.2.2⟩⟩
  rcases isAtom with isPath | isLiteral
  · exact isPath.plain noComment.2.1
  · cases isLiteral with
    | number isNumber => exact isNumber.plain
    | negative isNumber =>
      exact List.forall_mem_cons.mpr ⟨isPlain_joint (by decide), isNumber.plain⟩
    | character => exact absurd (by simp) noApostrophe.2.1
    | escape => exact absurd (by simp) noApostrophe.2.1
    | text => exact absurd (by simp) noQuote.2.1
    | rawText => exact absurd (by simp) noQuote.2.1

/-! ### The one value of a line -/

/-- A line that is one statement which discards a value. `code` is the code of the value. -/
structure Discard (line : Line) where
  head : Line
  value : Line
  tail : Line
  code : Line
  rest : Line
  opens : OpensDiscard head
  line_eq : line = head ++ (value ++ ';' :: tail)
  code_eq : Rust.codeOnly line = head ++ (code ++ ';' :: rest)
  aligned : value.length = code.length
  single : ';' ∉ code
  last : ∀ character ∈ rest, Text.isBlank character = true

/-- Texts up to the first of a character are the same if they begin the same text. -/
theorem eq_of_append_cons {stop : Char} {first second rest later : Line} (whole : stop ∉ first)
    (whole' : stop ∉ second) (same : first ++ stop :: rest = second ++ stop :: later) :
    first = second ∧ rest = later := by
  have cut {text : Line} (whole : stop ∉ text) (later : Line) :
      (text ++ stop :: later).takeWhile (· ≠ stop) = text := by
    rw [List.takeWhile_append_of_pos fun character member => by
        simpa using ne_of_mem_of_not_mem member whole,
      List.takeWhile_cons_of_neg (by simp), List.append_nil]
  have front : first = second := by rw [← cut whole rest, same, cut whole' later]
  exact ⟨front, (List.cons_eq_cons.mp (List.append_cancel_left (front ▸ same))).2⟩

/-- A head goes up to the first equals sign. -/
theorem OpensDiscard.exists_eq {head : Line} (opens : OpensDiscard head) :
    ∃ front, head = front ++ ['='] ∧ '=' ∉ front := by
  obtain @⟨margin, gap, inner, margin_blank, isGap, inner_blank⟩ := opens
  have noBlank {text : Line} (blank : ∀ character ∈ text, Text.isBlank character = true) :
      '=' ∉ text :=
    fun member => absurd (blank _ member) (by decide)
  refine ⟨margin ++ ("let".toList ++ (gap ++ '_' :: inner)), by simp, ?_⟩
  simp only [List.mem_append, List.mem_cons, not_or]
  exact ⟨noBlank margin_blank, by decide, noBlank isGap.blank, by decide, noBlank inner_blank⟩

theorem OpensDiscard.unique {head head' rest rest' : Line} (opens : OpensDiscard head)
    (opens' : OpensDiscard head') (same : head ++ rest = head' ++ rest') :
    head = head' ∧ rest = rest' := by
  obtain ⟨front, rfl, whole⟩ := opens.exists_eq
  obtain ⟨front', rfl, whole'⟩ := opens'.exists_eq
  rw [List.append_assoc, List.append_assoc] at same
  obtain ⟨rfl, later⟩ := eq_of_append_cons whole whole' same
  exact ⟨rfl, later⟩

/-- A line discards at most one value. -/
instance (line : Line) : Subsingleton (Discard line) where
  allEq first second := by
    obtain ⟨head, value, tail, code, rest, opens, line_eq, code_eq, aligned, single, _⟩ := first
    obtain ⟨head', value', tail', code', rest', opens', line_eq', code_eq', aligned', single', _⟩ :=
      second
    obtain ⟨rfl, later⟩ := opens.unique opens' (code_eq.symm.trans code_eq')
    obtain ⟨rfl, rfl⟩ := eq_of_append_cons single single' later
    have same := List.append_cancel_left (line_eq.symm.trans line_eq')
    obtain ⟨rfl, later⟩ := List.append_inj same (aligned.trans aligned'.symm)
    cases later
    rfl

/-! ### Lines that are removed -/

/-- A text in which no literal and no comment can begin stays in code as it is. -/
theorem codeAfter_append_of_ordinary {before text : Line}
    (ordinary : ∀ character ∈ text, character ∉ ['/', '"', '\'', 'r']) (rest : Line) :
    Rust.codeAfter before (text ++ rest) =
      text ++ Rust.codeAfter (text.reverse ++ before) rest := by
  induction text generalizing before with
  | nil => rfl
  | cons character text inductionHypothesis =>
    obtain ⟨here, later⟩ := List.forall_mem_cons.mp ordinary
    simp only [List.mem_cons, List.not_mem_nil, or_false, not_or] at here
    obtain ⟨noSlash, noQuote, noApostrophe, noRaw⟩ := here
    rw [List.cons_append, Rust.codeAfter_of_code (Rust.nextToken_of_plain noSlash noQuote
        noApostrophe (fun raw => absurd raw noRaw) _),
      inductionHypothesis later, List.reverse_cons, List.append_assoc]
    rfl

theorem OpensDiscard.ordinary {head : Line} (opens : OpensDiscard head) :
    ∀ character ∈ head, character ∉ ['/', '"', '\'', 'r'] := by
  obtain @⟨margin, gap, inner, margin_blank, isGap, inner_blank⟩ := opens
  have blank {text : Line} (blank : ∀ character ∈ text, Text.isBlank character = true) :
      ∀ character ∈ text, character ∉ ['/', '"', '\'', 'r'] := by
    intro character member special
    have visible : ∀ character ∈ ['/', '"', '\'', 'r'], Text.isBlank character = false :=
      List.forall_iff_forall_mem.mp (by decide)
    exact absurd (blank character member) (by rw [visible character special]; decide)
  simp only [List.forall_mem_append, List.forall_mem_cons]
  exact ⟨blank margin_blank, List.forall_iff_forall_mem.mp (by decide), blank isGap.blank,
    by decide, blank inner_blank, by decide, List.forall_mem_nil _⟩

/-- The pattern of the start of such a statement. -/
def discardHead : List Regex :=
  many blank :: (parts "let" ++ [atLeastOne blank, exactly '_', many blank, exactly '='])

/-- The pattern of the rest of it, up to the end of the line. -/
def discardBody : List Regex :=
  [many blank, .group 1 (inOrder [atLeastOne (noneOf [';'])]), exactly ';', many blank]

theorem underscoreBinding_eq :
    Rule.underscoreBinding.regex = inOrder (.anchor .start :: discardHead) := rfl

theorem simpleDiscard_eq :
    simpleDiscard =
      inOrder (.anchor .start :: (discardHead ++ discardBody ++ [.anchor .finish])) := rfl

theorem passesExactly_discardHead : (inOrder discardHead).PassesExactly OpensDiscard := by
  have passes := PassesExactly.blanks.cons ((PassesExactly.parts "let").append
    (PassesExactly.gap.cons ((PassesExactly.exactly '_').cons
      (PassesExactly.blanks.cons (PassesExactly.exactly '=').alone))))
  refine passes.congr fun text => ?_
  constructor
  · rintro ⟨margin, _, margin_blank, ⟨_, _, rfl, ⟨gap, _, isGap, ⟨_, _, rfl,
      ⟨inner, _, inner_blank, rfl, rfl⟩, rfl⟩, rfl⟩, rfl⟩, rfl⟩
    exact .intro margin_blank isGap inner_blank
  · rintro ⟨margin_blank, isGap, inner_blank⟩
    exact ⟨_, _, margin_blank, ⟨_, _, rfl, ⟨_, _, isGap, ⟨_, _, rfl,
      ⟨_, _, inner_blank, rfl, rfl⟩, rfl⟩, rfl⟩, rfl⟩, rfl⟩

theorem startsLine_underscoreBinding {line : Line} :
    Rule.underscoreBinding.regex.startsLine line = true ↔
      ∃ head, OpensDiscard head ∧ head <+: line := by
  rw [underscoreBinding_eq, startsLine_start_cons]
  exact passesExactly_discardHead.startsLine_iff

/-- The rest of such a statement: its value, a semicolon and blanks. -/
inductive EndsDiscard : Line → Prop where
  | intro {value rest : Line} (filled : value ≠ []) (single : ';' ∉ value)
    (last : ∀ character ∈ rest, Text.isBlank character = true) : EndsDiscard (value ++ ';' :: rest)

theorem passesExactly_discardBody : (inOrder discardBody).PassesExactly EndsDiscard := by
  have passes := PassesExactly.blanks.cons
    (((PassesExactly.repetition (.oneOf ([';'].map fun own => .single own.toNat) true) 1
      true).alone.group 1).cons ((PassesExactly.exactly ';').cons PassesExactly.blanks.alone))
  refine passes.congr fun text => ?_
  simp only [admits_noneOf, List.mem_singleton]
  constructor
  · rintro ⟨lead, _, lead_blank, ⟨value, _, ⟨others, filled⟩, ⟨_, rest, rfl, last, rfl⟩, rfl⟩, rfl⟩
    rw [← List.append_assoc]
    refine .intro (List.append_ne_nil_of_right_ne_nil lead (List.ne_nil_of_length_pos filled)) ?_
      last
    rw [List.mem_append, not_or]
    exact ⟨fun member => absurd (lead_blank _ member) (by decide),
      fun member => others _ member rfl⟩
  · rintro @⟨value, rest, filled, single, last⟩
    refine ⟨[], _, fun _ member => absurd member List.not_mem_nil, ⟨value, _,
      ⟨fun character member => ne_of_mem_of_not_mem member single, List.length_pos_iff.mpr filled⟩,
      ⟨_, rest, rfl, last, rfl⟩, rfl⟩, rfl⟩

/-- A whole statement of this kind is found. -/
theorem isSome_matchStart?_simpleDiscard {head body : Line} (opens : OpensDiscard head)
    (ends : EndsDiscard body) : (simpleDiscard.matchStart? (head ++ body)).isSome = true := by
  have starts : simpleDiscard.startsLine (head ++ body) = true := by
    rw [simpleDiscard_eq, startsLine_start_cons, startsLine, matchStart?, matchAt?,
      Option.isSome_map, run_inOrder_append]
    refine ((passesExactly_discardHead.append passesExactly_discardBody) _
      (fun left => left = [] ∨ left = ['\n']) (fun place => ?_) _).mpr ?_
    · simp [run, inOrder, Anchor.holds]
    · exact ⟨head ++ body, [], ⟨head, body, opens, ends, rfl⟩, (List.append_nil _).symm, Or.inl rfl⟩
  exact starts

theorem mayRunCode_eq_false {code : Line} :
    mayRunCode code = false ↔ '(' ∉ code ∧ '.' ∉ code ∧ '!' ∉ code := by
  simp [mayRunCode, and_assoc]

/-- Blanks in front run no code. -/
theorem mayRunCode_append {lead : Line}
    (blank : ∀ character ∈ lead, Text.isBlank character = true) (value : Line) :
    mayRunCode (lead ++ value) = mayRunCode value := by
  have absent {character : Char} (visible : Text.isBlank character = false) :
      character ∉ lead := fun member => absurd (blank _ member) (by simp [visible])
  rw [Bool.eq_iff_iff, ← not_iff_not, Bool.not_eq_true, Bool.not_eq_true, mayRunCode_eq_false,
    mayRunCode_eq_false]
  simp only [List.mem_append, not_or, absent (show Text.isBlank '(' = false by decide),
    absent (show Text.isBlank '.' = false by decide),
    absent (show Text.isBlank '!' = false by decide), not_false_eq_true, true_and]

/-- A statement whose code begins and ends as that of a discarding one is one itself, where its
line begins so too: the semicolon that is code stands at the same place in the line. -/
theorem exists_discard {line head code rest : Line} (opens : OpensDiscard head)
    (starts : Rule.underscoreBinding.regex.startsLine line = true) (single : ';' ∉ code)
    (last : ∀ character ∈ rest, Text.isBlank character = true)
    (shape : Rust.codeOnly line = head ++ (code ++ ';' :: rest)) :
    ∃ discard : Discard line, discard.code = code := by
  obtain ⟨_, opens', later, rfl⟩ := startsLine_underscoreBinding.mp starts
  have headShape := @codeAfter_append_of_ordinary [] _ opens'.ordinary later
  obtain ⟨rfl, laterShape⟩ := opens.unique opens' (shape.symm.trans headShape)
  have semicolon : [';'] <+: (Rust.codeAfter [] (head ++ later)).drop (head ++ code).length := by
    have whole : Rust.codeAfter [] (head ++ later) = (head ++ code) ++ ';' :: rest := by
      rw [List.append_assoc]
      exact shape
    rw [whole, List.drop_left]
    exact List.prefix_append [';'] rest
  have plain (before : Line) : Rust.IsPlainCode before [';'] := by
    simp [Rust.IsPlainCode]
  obtain ⟨tail, ends⟩ := ((Rust.prefix_drop_codeAfter_iff (List.cons_ne_nil _ _) plain).mp
    semicolon).1
  rw [List.length_append, ← List.drop_drop, List.drop_left] at ends
  have inside : code.length ≤ later.length := by
    have size := congrArg List.length ends
    rw [List.length_drop, List.length_append, List.length_singleton] at size
    omega
  refine ⟨⟨head, later.take code.length, tail, code, rest, opens, ?_, shape, ?_, single, last⟩, rfl⟩
  · rw [← List.singleton_append, ends, List.take_append_drop]
  · rw [List.length_take, Nat.min_eq_left inside]

/-- A line is removed exactly if it is one statement that discards a value, and the code of that
value is not empty and has no parenthesis, no dot and no exclamation mark. -/
theorem isApplicable_removeDiscard {line : Line} :
    (removeDiscard line).isApplicable = true ↔
      ∃ discard : Discard line, discard.code ≠ [] ∧ mayRunCode discard.code = false := by
  constructor
  · intro removed
    obtain ⟨starts, value, found, plain⟩ := value_of_removeDiscard removed
    obtain ⟨_, matched, captured⟩ := Option.bind_eq_some_iff.mp found
    obtain ⟨head, lead, own, rest, opens, lead_blank, filled, single, rest_blank, shape,
      captured'⟩ := discard_parts matched
    cases captured.symm.trans captured'
    have single' : ';' ∉ lead ++ value := by
      rw [List.mem_append, not_or]
      exact ⟨fun member => absurd (lead_blank _ member) (by decide), single⟩
    obtain ⟨discard, same⟩ := exists_discard opens starts single' rest_blank shape
    refine ⟨discard, ?_, ?_⟩
    · rw [same]
      exact List.append_ne_nil_of_right_ne_nil lead filled
    · rw [same, mayRunCode_append lead_blank, plain]
  · rintro ⟨discard, filled, plain⟩
    have starts : Rule.underscoreBinding.regex.startsLine line = true :=
      startsLine_underscoreBinding.mpr ⟨discard.head, discard.opens, _, discard.line_eq.symm⟩
    have found := isSome_matchStart?_simpleDiscard discard.opens
      (.intro filled discard.single discard.last)
    rw [← discard.code_eq] at found
    obtain ⟨found, matched⟩ := Option.isSome_iff_exists.mp found
    obtain ⟨head, lead, value, rest, opens, lead_blank, _, single, _, shape, captured⟩ :=
      discard_parts matched
    have same : discard.code = lead ++ value := by
      have later := (discard.opens.unique opens (discard.code_eq.symm.trans shape)).2
      refine (eq_of_append_cons discard.single ?_ later).1
      rw [List.mem_append, not_or]
      exact ⟨fun member => absurd (lead_blank _ member) (by decide), single⟩
    rw [same, mayRunCode_append lead_blank] at plain
    rw [removeDiscard, starts, matched]
    simp [captured, plain, Plan.isApplicable]

/-- A line is removed only if the value that it discards is inert. -/
def RemovesOnlyInert (line : Line) : Prop :=
  (removeDiscard line).isApplicable = true → ∃ discard : Discard line, IsInert discard.value

/-- A value with another operator, a bracket, a brace or a question mark is not inert, but its line
is removed all the same. -/
theorem Discard.not_removesOnlyInert {line : Line} (discard : Discard line)
    (plain : mayRunCode discard.code = false) {character : Char}
    (member : character ∈ discard.value) (other : ¬ IsPlain character)
    (noQuote : '"' ∉ discard.value) (noApostrophe : '\'' ∉ discard.value)
    (noComment : '/' ∉ discard.value) : ¬ RemovesOnlyInert line := by
  intro removesOnlyInert
  have filled : discard.code ≠ [] := by
    rw [← List.length_pos_iff, ← discard.aligned]
    exact List.length_pos_of_mem member
  obtain ⟨own, inert⟩ := removesOnlyInert (isApplicable_removeDiscard.mpr ⟨discard, filled, plain⟩)
  rw [Subsingleton.elim own discard] at inert
  exact other (inert.plain noQuote noApostrophe noComment character member)

/-- A line is removed exactly if it discards a value without parentheses, dots and exclamation
marks in its code. So only inert values are removed exactly if each other value that the line may
discard has one of them. -/
theorem removesOnlyInert_iff (line : Line) :
    ((removeDiscard line).isApplicable = true ↔
        ∃ discard : Discard line, discard.value ≠ [] ∧ '(' ∉ discard.code ∧ '.' ∉ discard.code ∧
          '!' ∉ discard.code) ∧
      (RemovesOnlyInert line ↔ ∀ discard : Discard line, discard.value ≠ [] →
        IsInert discard.value ∨ '(' ∈ discard.code ∨ '.' ∈ discard.code ∨ '!' ∈ discard.code) := by
  have filled (discard : Discard line) : discard.value ≠ [] ↔ discard.code ≠ [] := by
    rw [← List.length_pos_iff, discard.aligned, List.length_pos_iff]
  have removed : (removeDiscard line).isApplicable = true ↔
      ∃ discard : Discard line, discard.value ≠ [] ∧ '(' ∉ discard.code ∧ '.' ∉ discard.code ∧
        '!' ∉ discard.code := by
    simp only [isApplicable_removeDiscard, mayRunCode_eq_false, filled]
  refine ⟨removed, ?_⟩
  rw [RemovesOnlyInert, removed]
  constructor
  · intro inert discard filled
    refine or_iff_not_imp_right.mpr fun plain => ?_
    simp only [not_or] at plain
    obtain ⟨other, isInert⟩ := inert ⟨discard, filled, plain⟩
    rwa [Subsingleton.elim discard other]
  · rintro inert ⟨discard, filled, plain⟩
    refine ⟨discard, (inert discard filled).resolve_right ?_⟩
    simpa only [not_or] using plain

/-- A statement that hands a failure on and discards what is left. -/
def propagatingDiscard : Discard "    let _ = a?;".toList where
  head := "    let _ =".toList
  value := " a?".toList
  tail := []
  code := " a?".toList
  rest := []
  opens := @OpensDiscard.intro "    ".toList [' '] [' ']
    (List.forall_iff_forall_mem.mp (by decide))
    ⟨by decide, List.forall_iff_forall_mem.mp (by decide)⟩
    (List.forall_iff_forall_mem.mp (by decide))
  line_eq := rfl
  code_eq := by decide +kernel
  aligned := rfl
  single := by decide
  last := List.forall_mem_nil _

/-- A value that is handed on with a question mark may leave the function, but it has none of the
characters that are looked for. -/
theorem not_removesOnlyInert_propagatingLine : ¬ RemovesOnlyInert "    let _ = a?;".toList := by
  have member : '?' ∈ propagatingDiscard.value := by decide
  have other : ¬ IsPlain '?' := by
    rw [IsPlain]
    decide
  exact propagatingDiscard.not_removesOnlyInert rfl member other (by decide) (by decide) (by decide)

end CrateAudit.Fix
