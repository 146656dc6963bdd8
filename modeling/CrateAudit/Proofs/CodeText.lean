/-
This file says when a text stands in code. A text that no literal and no comment can
interrupt, such as a method call, stands in the code of a line exactly where it stands
in the line and its first character is code. So the place of its first character
decides, and looking at the line or at its code comes to the same.
-/

import CrateAudit.Proofs.Search
import CrateAudit.Rust.Lexing
import Mathlib.Data.List.Sort

namespace CrateAudit.Rust

/-! ### Tokens of plain characters -/

/-- A token is a comment up to the end, one character of code, or a literal. -/
theorem nextToken_cases (before : Line) (first : Char) (rest : Line) :
    ((nextToken before first rest).1.kind = .comment ∧ (nextToken before first rest).2 = []) ∨
      nextToken before first rest = (⟨.code, [first]⟩, rest) ∨
      ((nextToken before first rest).1.kind = .rawString ∨
        (nextToken before first rest).1.kind = .string ∨
        (nextToken before first rest).1.kind = .character) := by
  unfold nextToken
  split
  · exact Or.inl ⟨rfl, rfl⟩
  · split
    · split
      · exact Or.inr (Or.inr (Or.inl rfl))
      · exact Or.inr (Or.inl rfl)
    · split
      · exact Or.inr (Or.inr (Or.inr (Or.inl rfl)))
      · split
        · split
          · exact Or.inr (Or.inr (Or.inr (Or.inr rfl)))
          · exact Or.inr (Or.inl rfl)
        · exact Or.inr (Or.inl rfl)

/-- Nothing follows a comment. -/
theorem nextToken_snd_of_comment {before rest : Line} {first : Char}
    (comment : (nextToken before first rest).1.kind = .comment) :
    (nextToken before first rest).2 = [] := by
  rcases nextToken_cases before first rest with ⟨_, none⟩ | code | literal
  · exact none
  · rw [code] at comment
    cases comment
  · rw [comment] at literal
    simp at literal

theorem Token.blanked_of_literal {token : Token}
    (literal : token.kind = .rawString ∨ token.kind = .string ∨ token.kind = .character) :
    token.blanked = List.replicate token.text.length ' ' := by
  rw [Token.blanked]
  rcases literal with kind | kind | kind <;> rw [kind]

/-- The code of a text after another one: literals blanked, a comment left out. -/
def codeAfter (before line : Line) : Line :=
  (tokensAfter before line).flatMap Token.blanked

/-- Where the character at an offset lies in a text after another one. -/
def contextAfter (before line : Line) (offset : Nat) : Context :=
  (Lexing.mk ((tokensAfter before line).flatMap Token.states)
    (commentStartFrom 0 (tokensAfter before line))).contextAt offset

theorem codeAfter_nil (before : Line) : codeAfter before [] = [] := by
  rw [codeAfter, tokensAfter, List.flatMap_nil]

/-- What is left of a token in code stands before the code that follows it. -/
theorem codeAfter_cons (before rest : Line) (first : Char) :
    codeAfter before (first :: rest) =
      (nextToken before first rest).1.blanked ++
        codeAfter ((nextToken before first rest).1.text.reverse ++ before)
          (nextToken before first rest).2 := by
  rw [codeAfter, tokensAfter, List.flatMap_cons, codeAfter]

theorem codeAfter_of_comment {before rest : Line} {first : Char}
    (comment : (nextToken before first rest).1.kind = .comment) :
    codeAfter before (first :: rest) = [] := by
  rw [codeAfter_cons, nextToken_snd_of_comment comment, codeAfter_nil, List.append_nil,
    Token.blanked, comment]

theorem codeAfter_of_code {before rest : Line} {first : Char}
    (code : nextToken before first rest = (⟨.code, [first]⟩, rest)) :
    codeAfter before (first :: rest) = first :: codeAfter (first :: before) rest := by
  rw [codeAfter_cons, code]
  rfl

theorem codeAfter_of_literal {before rest : Line} {first : Char}
    (literal : (nextToken before first rest).1.kind = .rawString ∨
      (nextToken before first rest).1.kind = .string ∨
        (nextToken before first rest).1.kind = .character) :
    codeAfter before (first :: rest) =
      List.replicate (nextToken before first rest).1.text.length ' ' ++
        codeAfter ((nextToken before first rest).1.text.reverse ++ before)
          (nextToken before first rest).2 := by
  rw [codeAfter_cons, Token.blanked_of_literal literal]

theorem commentStartFrom_add (offset more : Nat) (found : List Token) :
    commentStartFrom (offset + more) found = (commentStartFrom more found).map (offset + ·) := by
  induction found generalizing more with
  | nil => rfl
  | cons token rest inductionHypothesis =>
    rw [commentStartFrom, commentStartFrom]
    split
    · rfl
    · rw [← inductionHypothesis, Nat.add_assoc]

/-- The first states decide up to their end, and what follows them from there. -/
theorem contextAt_append (first states : List State) (commentStart : Option Nat) (offset : Nat) :
    (Lexing.mk (first ++ states) (commentStart.map (first.length + ·))).contextAt offset =
      if offset < first.length then (Lexing.mk first none).contextAt offset
      else (Lexing.mk states commentStart).contextAt (offset - first.length) := by
  rw [Lexing.contextAt, Lexing.contextAt, Lexing.contextAt]
  by_cases inside : offset < first.length
  · have none : (commentStart.map (first.length + ·)).any (· ≤ offset) = false := by
      cases commentStart with
      | none => rfl
      | some start =>
        simp only [Option.map_some, Option.any_some, decide_eq_false_iff_not]
        omega
    rw [if_pos inside, none, List.getElem?_append_left inside]
    rfl
  · have same : (commentStart.map (first.length + ·)).any (· ≤ offset) =
        commentStart.any (· ≤ offset - first.length) := by
      cases commentStart with
      | none => rfl
      | some start =>
        simp only [Option.map_some, Option.any_some, decide_eq_decide]
        omega
    rw [if_neg inside, same, List.getElem?_append_right (by omega)]

/-- Inside a token its kind decides, and after it what follows. -/
theorem contextAfter_cons {before rest : Line} {first : Char}
    (noComment : (nextToken before first rest).1.kind ≠ .comment) (offset : Nat) :
    contextAfter before (first :: rest) offset =
      if offset < (nextToken before first rest).1.text.length then
        if (nextToken before first rest).1.kind = .code then .code else .literal
      else contextAfter ((nextToken before first rest).1.text.reverse ++ before)
        (nextToken before first rest).2
        (offset - (nextToken before first rest).1.text.length) := by
  rw [contextAfter, tokensAfter, List.flatMap_cons]
  generalize nextToken before first rest = step at noComment
  have start : commentStartFrom 0 (step.1 :: tokensAfter (step.1.text.reverse ++ before) step.2) =
      (commentStartFrom 0 (tokensAfter (step.1.text.reverse ++ before) step.2)).map
        (step.1.states.length + ·) := by
    have size : step.1.states.length = step.1.text.length := List.length_replicate
    have skip : commentStartFrom 0
        (step.1 :: tokensAfter (step.1.text.reverse ++ before) step.2) =
          commentStartFrom (step.1.text.length + 0)
            (tokensAfter (step.1.text.reverse ++ before) step.2) := by
      rw [commentStartFrom, Nat.zero_add, Nat.add_zero]
      cases kind : step.1.kind <;> first
        | rfl
        | exact absurd kind noComment
    rw [skip, size, commentStartFrom_add]
  rw [start, contextAt_append]
  have size : step.1.states.length = step.1.text.length := List.length_replicate
  rw [size]
  by_cases inside : offset < step.1.text.length
  · rw [if_pos inside, if_pos inside, Lexing.contextAt]
    have state : step.1.states[offset]? = some step.1.kind.state := by
      rw [Token.states, List.getElem?_replicate, if_pos inside]
    simp only [Option.any_none, Bool.false_eq_true, if_false, state]
    cases kind : step.1.kind <;> first
      | rfl
      | exact absurd kind noComment
  · rw [if_neg inside, if_neg inside]
    rfl

theorem contextAfter_of_comment {before rest : Line} {first : Char}
    (comment : (nextToken before first rest).1.kind = .comment) (offset : Nat) :
    contextAfter before (first :: rest) offset = .comment := by
  rw [contextAfter, tokensAfter, Lexing.contextAt, commentStartFrom, comment]
  rfl

theorem contextAfter_zero_of_code {before rest : Line} {first : Char}
    (code : nextToken before first rest = (⟨.code, [first]⟩, rest)) :
    contextAfter before (first :: rest) 0 = .code := by
  rw [contextAfter_cons (by rw [code]; exact TokenKind.noConfusion), code]
  rfl

theorem contextAfter_succ_of_code {before rest : Line} {first : Char}
    (code : nextToken before first rest = (⟨.code, [first]⟩, rest)) (offset : Nat) :
    contextAfter before (first :: rest) (offset + 1) =
      contextAfter (first :: before) rest offset := by
  rw [contextAfter_cons (by rw [code]; exact TokenKind.noConfusion), code]
  rfl

theorem contextAfter_of_literal {before rest : Line} {first : Char}
    (literal : (nextToken before first rest).1.kind = .rawString ∨
      (nextToken before first rest).1.kind = .string ∨
        (nextToken before first rest).1.kind = .character) (offset : Nat) :
    contextAfter before (first :: rest) offset =
      if offset < (nextToken before first rest).1.text.length then .literal
      else contextAfter ((nextToken before first rest).1.text.reverse ++ before)
        (nextToken before first rest).2
        (offset - (nextToken before first rest).1.text.length) := by
  have noComment : (nextToken before first rest).1.kind ≠ .comment := by
    rcases literal with kind | kind | kind <;> rw [kind] <;> decide
  have noCode : (nextToken before first rest).1.kind ≠ .code := by
    rcases literal with kind | kind | kind <;> rw [kind] <;> decide
  rw [contextAfter_cons noComment, if_neg noCode]

/-! ### Texts that nothing interrupts -/

/-- Whether each character of a text is code once the first one is: none opens a literal or a
comment. -/
def IsPlainCode (before : Line) : Line → Prop
  | [] => True
  | character :: rest =>
    character ≠ '/' ∧ character ≠ '"' ∧ character ≠ '\'' ∧ character ≠ ' ' ∧
      (character = 'r' → mayOpenRaw before = false) ∧ IsPlainCode (character :: before) rest

theorem nextToken_of_plain {before : Line} {first : Char} (noSlash : first ≠ '/')
    (noQuote : first ≠ '"') (noApostrophe : first ≠ '\'')
    (noRaw : first = 'r' → mayOpenRaw before = false) (rest : Line) :
    nextToken before first rest = (⟨.code, [first]⟩, rest) := by
  have closed : ¬(first = 'r' ∧ mayOpenRaw before = true) := by
    rintro ⟨same, opens⟩
    rw [noRaw same] at opens
    cases opens
  rw [nextToken, if_neg fun both => noSlash both.1, if_neg closed, if_neg noQuote,
    if_neg noApostrophe]

/-- Such a text stays in code as it is. -/
theorem codeAfter_append {before sought : Line} (plain : IsPlainCode before sought)
    (rest : Line) :
    codeAfter before (sought ++ rest) = sought ++ codeAfter (sought.reverse ++ before) rest := by
  induction sought generalizing before with
  | nil => rfl
  | cons character sought inductionHypothesis =>
    obtain ⟨noSlash, noQuote, noApostrophe, _, noRaw, plainRest⟩ := plain
    rw [List.cons_append,
      codeAfter_of_code (nextToken_of_plain noSlash noQuote noApostrophe noRaw _),
      inductionHypothesis plainRest, List.reverse_cons, List.append_assoc]
    rfl

/-- What stands in code without a blank stands in the line. -/
theorem prefix_of_prefix_codeAfter {before line sought : Line} (noBlank : ' ' ∉ sought)
    (inCode : sought <+: codeAfter before line) : sought <+: line := by
  fun_induction tokensAfter before line generalizing sought with
  | case1 before =>
    rw [codeAfter_nil] at inCode
    exact inCode
  | case2 before first rest step =>
    rename_i inductionHypothesis
    cases sought with
    | nil => exact List.nil_prefix
    | cons character sought =>
      rw [List.mem_cons, not_or] at noBlank
      rcases nextToken_cases before first rest with ⟨comment, -⟩ | code | literal
      · rw [codeAfter_of_comment comment] at inCode
        exact absurd (List.prefix_nil.mp inCode) (List.cons_ne_nil _ _)
      · simp only [step, code] at inductionHypothesis
        rw [codeAfter_of_code code] at inCode
        obtain ⟨same, later⟩ := List.cons_prefix_cons.mp inCode
        exact List.cons_prefix_cons.mpr ⟨same, inductionHypothesis noBlank.2 later⟩
      · obtain ⟨tail, shape⟩ := nextToken_text before first rest
        rw [codeAfter_of_literal literal, shape, List.length_cons, List.replicate_succ,
          List.cons_append] at inCode
        exact absurd (List.cons_prefix_cons.mp inCode).1.symm noBlank.1

theorem blank_not_mem_of_isPlainCode {before text : Line} (plain : IsPlainCode before text) :
    ' ' ∉ text := by
  induction text generalizing before with
  | nil => exact List.not_mem_nil
  | cons character rest inductionHypothesis =>
    obtain ⟨_, _, _, notBlank, _, plainRest⟩ := plain
    rw [List.mem_cons, not_or]
    exact ⟨Ne.symm notBlank, inductionHypothesis plainRest⟩

theorem not_prefix_replicate_append {sought : Line} (filled : sought ≠ []) (noBlank : ' ' ∉ sought)
    {count : Nat} (positive : 0 < count) (rest : Line) :
    ¬ sought <+: List.replicate count ' ' ++ rest := by
  intro starts
  obtain ⟨character, later, rfl⟩ := List.exists_cons_of_ne_nil filled
  obtain ⟨count, rfl⟩ := Nat.exists_eq_succ_of_ne_zero positive.ne'
  rw [List.replicate_succ, List.cons_append] at starts
  exact noBlank (List.mem_cons.mpr (Or.inl (List.cons_prefix_cons.mp starts).1.symm))

/-- A text that nothing interrupts stands in code at an offset exactly if it stands in the line
there and its first character is code. -/
theorem prefix_drop_codeAfter_iff {before line sought : Line} {offset : Nat}
    (filled : sought ≠ []) (plain : ∀ before, IsPlainCode before sought) :
    sought <+: (codeAfter before line).drop offset ↔
      sought <+: line.drop offset ∧ contextAfter before line offset = .code := by
  have noBlank : ' ' ∉ sought := blank_not_mem_of_isPlainCode (plain [])
  have absent (n : Nat) : ¬ sought <+: (List.drop n [] : Line) := by
    rw [List.drop_nil, List.prefix_nil]
    exact filled
  fun_induction tokensAfter before line generalizing offset with
  | case1 before =>
    rw [codeAfter_nil]
    exact ⟨fun inside => absurd inside (absent offset), fun both => absurd both.1 (absent offset)⟩
  | case2 before first rest step =>
    rename_i inductionHypothesis
    rcases nextToken_cases before first rest with ⟨comment, -⟩ | code | literal
    · rw [codeAfter_of_comment comment, contextAfter_of_comment comment]
      exact ⟨fun inside => absurd inside (absent offset),
        fun both => Context.noConfusion both.2⟩
    · simp only [step, code] at inductionHypothesis
      cases offset with
      | zero =>
        rw [contextAfter_zero_of_code code]
        refine ⟨fun inside => ⟨prefix_of_prefix_codeAfter noBlank inside, rfl⟩, fun both => ?_⟩
        obtain ⟨tail, whole⟩ := both.1
        rw [List.drop_zero] at whole ⊢
        rw [← whole, codeAfter_append (plain before)]
        exact List.prefix_append _ _
      | succ offset =>
        rw [contextAfter_succ_of_code code, codeAfter_of_code code, List.drop_succ_cons,
          List.drop_succ_cons]
        exact inductionHypothesis
    · rw [contextAfter_of_literal literal, codeAfter_of_literal literal]
      by_cases inside : offset < (nextToken before first rest).1.text.length
      · rw [if_pos inside,
          List.drop_append_of_le_length (by rw [List.length_replicate]; omega),
          List.drop_replicate]
        exact ⟨fun inCode => absurd inCode
          (not_prefix_replicate_append filled noBlank (Nat.sub_pos_of_lt inside) _),
          fun both => Context.noConfusion both.2⟩
      · have size : (List.replicate (nextToken before first rest).1.text.length ' ').length =
            (nextToken before first rest).1.text.length := List.length_replicate
        have inLine : (first :: rest).drop offset = (nextToken before first rest).2.drop
            (offset - (nextToken before first rest).1.text.length) := by
          rw [← nextToken_append before first rest, List.drop_append,
            List.drop_eq_nil_of_le (by omega), List.nil_append]
        rw [if_neg inside, List.drop_append, List.drop_eq_nil_of_le (by rw [size]; omega),
          List.nil_append, size, inLine]
        exact inductionHypothesis

/-- Such a text occurs in the code of a line exactly where it occurs in the line and its first
character is code. -/
theorem mem_occurrences_codeOnly {line sought : Line} (filled : sought ≠ [])
    (plain : ∀ before, IsPlainCode before sought) {offset : Nat} :
    offset ∈ Text.occurrences sought (codeOnly line) ↔
      offset ∈ Text.occurrences sought line ∧ (lex line).contextAt offset = .code := by
  have code : codeOnly line = codeAfter [] line := rfl
  have context : (lex line).contextAt = contextAfter [] line := rfl
  rw [Text.mem_occurrences_of_ne_nil filled, Text.mem_occurrences_of_ne_nil filled, code, context]
  exact prefix_drop_codeAfter_iff filled plain

/-- So the occurrences in code are those in the code, one by one. -/
theorem filter_occurrences_eq {line sought : Line} (filled : sought ≠ [])
    (plain : ∀ before, IsPlainCode before sought) :
    (Text.occurrences sought line).filter (fun offset => (lex line).contextAt offset = .code) =
      Text.occurrences sought (codeOnly line) := by
  refine ((Text.pairwise_occurrences sought line).filter _).eq_of_mem_iff
    (Text.pairwise_occurrences sought (codeOnly line)) fun offset => ?_
  rw [List.mem_filter, decide_eq_true_eq, mem_occurrences_codeOnly filled plain]

/-- Such a text occurs in the code of a line exactly if an occurrence of it is code. -/
theorem includes_codeOnly_iff {line sought : Line} (filled : sought ≠ [])
    (plain : ∀ before, IsPlainCode before sought) :
    Text.includes sought (codeOnly line) = true ↔
      ∃ offset ∈ Text.occurrences sought line, (lex line).contextAt offset = .code := by
  rw [Text.includes_iff_occurrences_ne_nil]
  constructor
  · intro found
    obtain ⟨offset, member⟩ := List.exists_mem_of_ne_nil _ found
    exact ⟨offset, (mem_occurrences_codeOnly filled plain).mp member⟩
  · rintro ⟨offset, inCode⟩
    exact List.ne_nil_of_mem ((mem_occurrences_codeOnly filled plain).mpr inCode)

/-- A line holds such a text that is not inert exactly if its code holds the text. -/
theorem includes_and_not_isInert {line sought : Line} (filled : sought ≠ [])
    (plain : ∀ before, IsPlainCode before sought) :
    (Text.includes sought line && !isInert line sought) = Text.includes sought (codeOnly line) := by
  have inert : isInert line sought = true ↔ Text.occurrences sought line ≠ [] ∧
      ∀ offset ∈ Text.occurrences sought line, (lex line).contextAt offset ≠ .code := by
    simp [isInert, filled]
  rw [Bool.eq_iff_iff, includes_codeOnly_iff filled plain, Bool.and_eq_true, Bool.not_eq_true',
    ← Bool.not_eq_true, inert, Text.includes_iff_occurrences_ne_nil]
  constructor
  · rintro ⟨occurs, notInert⟩
    by_cases none : ∀ offset ∈ Text.occurrences sought line, (lex line).contextAt offset ≠ .code
    · exact absurd ⟨occurs, none⟩ notInert
    · simpa using none
  · rintro ⟨offset, member, code⟩
    exact ⟨List.ne_nil_of_mem member, fun all => all.2 offset member code⟩

end CrateAudit.Rust
