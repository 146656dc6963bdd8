/-
This file says that blanks at the ends of a line do not matter to its code. In front they
are code and change nothing behind them. At the end they are code too, or they lengthen a
literal or a comment that is open there; none of them opens or closes one. So the code of
the trimmed line has the brackets of the line, and its last character if that is no blank.
-/

import CrateAudit.Proofs.ManifestComments
import CrateAudit.Proofs.Splicing

namespace CrateAudit

namespace Text

theorem ne_of_isBlank {blank mark : Char} (isBlank : isBlank blank = true)
    (filled : Text.isBlank mark = false) : blank ≠ mark := by
  rintro rfl
  exact Bool.false_ne_true (filled.symm.trans isBlank)

end Text

namespace Rust

variable {last : Char} {before line rest : Line}

/-! ### A blank at the end -/

/-- A text that was cut in two and is cut again with one more character: the character comes to
what was left, or to the first part if nothing was left. -/
def Lengthens (last : Char) (parts parts' : Line × Line) : Prop :=
  parts' = (parts.1, parts.2 ++ [last]) ∨ parts.2 = [] ∧ parts' = (parts.1 ++ [last], [])

theorem Lengthens.cons {parts parts' : Line × Line} (lengthens : Lengthens last parts parts')
    (character : Char) :
    Lengthens last (character :: parts.1, parts.2) (character :: parts'.1, parts'.2) := by
  rcases lengthens with rfl | ⟨none, rfl⟩
  · exact Or.inl rfl
  · exact Or.inr ⟨none, rfl⟩

theorem lengthens_throughQuote (noQuote : last ≠ '"') (line : Line) :
    Lengthens last (throughQuote line) (throughQuote (line ++ [last])) := by
  induction line with
  | nil => exact Or.inr ⟨rfl, if_neg noQuote⟩
  | cons character rest inductionHypothesis =>
    rw [List.cons_append, throughQuote, throughQuote]
    split
    · exact Or.inl rfl
    · exact inductionHypothesis.cons character

theorem lengthens_throughPlainQuote (noQuote : last ≠ '"') (noEscape : last ≠ '\\') (line : Line) :
    Lengthens last (throughPlainQuote line) (throughPlainQuote (line ++ [last])) := by
  fun_induction throughPlainQuote line with
  | case1 => exact Or.inr ⟨rfl, by simp [throughPlainQuote, noQuote]⟩
  | case2 escaped rest later inductionHypothesis =>
    rw [List.cons_append, List.cons_append, throughPlainQuote]
    exact (inductionHypothesis.cons escaped).cons '\\'
  | case3 rest notEscape =>
    rw [List.cons_append, throughPlainQuote, if_pos rfl]
    · exact Or.inl rfl
    · simp
  | case4 character rest notEscape noQuote' later inductionHypothesis =>
    by_cases alone : character = '\\' ∧ rest = []
    · -- A backslash at the end escapes what is put behind it.
      obtain ⟨rfl, rfl⟩ := alone
      exact Or.inr ⟨rfl, rfl⟩
    · rw [List.cons_append, throughPlainQuote, if_neg noQuote']
      · exact inductionHypothesis.cons character
      · intro escaped tail same more
        cases rest with
        | nil => exact alone ⟨same, rfl⟩
        | cons next rest => exact notEscape next rest same rfl

theorem lengthens_rawString? (noQuote : last ≠ '"') (noMark : last ≠ '#') (rest : Line) :
    Option.Rel (Lengthens last) (rawString? rest) (rawString? (rest ++ [last])) := by
  rw [rawString?, rawString?, List.dropWhile_append, List.takeWhile_append]
  cases left : rest.dropWhile (· = '#') with
  | nil =>
    rw [List.isEmpty_nil, if_pos rfl, List.dropWhile_cons_of_neg (by simpa using noMark)]
    simp only [List.cons.injEq, noQuote, false_and, imp_self, implies_true]
    exact .none
  | cons character body =>
    have marks : (rest.takeWhile (· = '#')).length ≠ rest.length := by
      have whole := congrArg List.length
        (List.takeWhile_append_dropWhile (p := (· = '#')) (l := rest))
      rw [List.length_append, left, List.length_cons] at whole
      omega
    rw [List.isEmpty_cons, if_neg Bool.false_ne_true, if_neg marks, List.cons_append]
    by_cases quote : character = '"'
    · subst quote
      refine .some ?_
      rcases lengthens_throughQuote noQuote body with same | ⟨none, more⟩
      · exact Or.inl (by simp [same])
      · exact Or.inr ⟨none, by simp [more]⟩
    · simp only [List.cons.injEq, quote, false_and, imp_self, implies_true]
      exact .none

theorem throughApostrophe?_concat (noApostrophe : last ≠ '\'') (count : Nat) (line : Line) :
    throughApostrophe? count (line ++ [last]) =
      (throughApostrophe? count line).map fun parts => (parts.1, parts.2 ++ [last]) := by
  induction count generalizing line with
  | zero => rw [throughApostrophe?, throughApostrophe?]; rfl
  | succ count inductionHypothesis =>
    cases line with
    | nil =>
      simp only [List.nil_append, throughApostrophe?, if_neg noApostrophe]
      cases count <;> rfl
    | cons character rest =>
      rw [List.cons_append, throughApostrophe?, throughApostrophe?]
      split
      · rfl
      · rw [inductionHypothesis, Option.map_map, Option.map_map]
        rfl

theorem characterLiteral?_concat (noApostrophe : last ≠ '\'') (rest : Line) :
    characterLiteral? (rest ++ [last]) =
      (characterLiteral? rest).map fun parts => (parts.1, parts.2 ++ [last]) := by
  rcases rest with - | ⟨character, - | ⟨next, rest⟩⟩
  · simp [characterLiteral?]
  · by_cases escape : character = '\\'
    · subst escape
      simp [characterLiteral?, throughApostrophe?]
    · simp [characterLiteral?, noApostrophe]
  · by_cases escape : character = '\\'
    · subst escape
      simp [characterLiteral?, throughApostrophe?_concat noApostrophe, Function.comp_def]
    · by_cases closes : next = '\'' <;> simp [characterLiteral?, escape, closes]

/-- The same for a token and what follows it. Only a literal or a comment is lengthened. -/
def LengthensToken (last : Char) (step step' : Token × Line) : Prop :=
  step' = (step.1, step.2 ++ [last]) ∨
    step.2 = [] ∧ step.1.kind ≠ .code ∧ step' = (⟨step.1.kind, step.1.text ++ [last]⟩, [])

/-- A blank at the end comes to what follows a token, or lengthens a last token that is open. -/
theorem lengthens_nextToken (blank : Text.isBlank last = true) (before : Line) (first : Char)
    (rest : Line) :
    LengthensToken last (nextToken before first rest)
      (nextToken before first (rest ++ [last])) := by
  have other (mark : Char) (filled : Text.isBlank mark = false) : last ≠ mark :=
    Text.ne_of_isBlank blank filled
  have slashes : (rest ++ [last]).head? = some '/' ↔ rest.head? = some '/' := by
    cases rest with
    | nil => simp [other '/' rfl]
    | cons character rest => rfl
  simp only [nextToken, slashes]
  by_cases comment : first = '/' ∧ rest.head? = some '/'
  · rw [if_pos comment, if_pos comment]
    exact Or.inr ⟨rfl, TokenKind.noConfusion, rfl⟩
  rw [if_neg comment, if_neg comment]
  by_cases raw : first = 'r' ∧ mayOpenRaw before = true
  · rw [if_pos raw, if_pos raw]
    have lengthens := lengthens_rawString? (other '"' rfl) (other '#' rfl) rest
    generalize rawString? rest = found, rawString? (rest ++ [last]) = found' at lengthens
    cases lengthens with
    | none => exact Or.inl rfl
    | some lengthens =>
      rcases lengthens with rfl | ⟨none, rfl⟩
      · exact Or.inl rfl
      · exact Or.inr ⟨none, TokenKind.noConfusion, rfl⟩
  rw [if_neg raw, if_neg raw]
  by_cases quote : first = '"'
  · rw [if_pos quote, if_pos quote]
    rcases lengthens_throughPlainQuote (other '"' rfl) (other '\\' rfl) rest with
      same | ⟨none, more⟩
    · exact Or.inl (by simp [same])
    · exact Or.inr ⟨none, TokenKind.noConfusion, by simp [more]⟩
  rw [if_neg quote, if_neg quote]
  by_cases apostrophe : first = '\''
  · rw [if_pos apostrophe, if_pos apostrophe, characterLiteral?_concat (other '\'' rfl)]
    cases characterLiteral? rest <;> exact Or.inl rfl
  · rw [if_neg apostrophe, if_neg apostrophe]
    exact Or.inl rfl

/-- Blanks are code wherever they stand outside of literals and comments. -/
theorem codeAfter_cons_blank (blank : Text.isBlank last = true) (before rest : Line) :
    codeAfter before (last :: rest) = last :: codeAfter (last :: before) rest := by
  have other (mark : Char) (filled : Text.isBlank mark = false) : last ≠ mark :=
    Text.ne_of_isBlank blank filled
  exact codeAfter_of_code (nextToken_of_plain (other '/' rfl) (other '"' rfl) (other '\'' rfl)
    (fun raw => absurd raw (other 'r' rfl)) rest)

/-- A blank at the end leaves the code as it is, up to blanks at its end. -/
theorem exists_codeAfter_concat (blank : Text.isBlank last = true) (before line : Line) :
    ∃ back, (∀ character ∈ back, Text.isBlank character = true) ∧
      codeAfter before (line ++ [last]) = codeAfter before line ++ back := by
  have one : ∀ character ∈ [last], Text.isBlank character = true := by simpa using blank
  fun_induction tokensAfter before line with
  | case1 before =>
    refine ⟨[last], one, ?_⟩
    rw [List.nil_append, codeAfter_cons_blank blank, codeAfter_nil, codeAfter_nil]
    rfl
  | case2 before first rest step inductionHypothesis =>
    obtain ⟨back, blanks, follows⟩ := inductionHypothesis
    rw [List.cons_append, codeAfter_cons, codeAfter_cons]
    rcases lengthens_nextToken blank before first rest with same | ⟨none, noCode, more⟩
    · exact ⟨back, blanks, by rw [same, follows, List.append_assoc]⟩
    · rw [more, none, codeAfter_nil, codeAfter_nil, List.append_nil, List.append_nil]
      rcases nextToken_cases before first rest with ⟨comment, -⟩ | code | literal
      · exact ⟨[], fun _ member => absurd member List.not_mem_nil, by
          rw [Token.blanked, Token.blanked, comment]; rfl⟩
      · exact absurd (congrArg (·.1.kind) code) noCode
      · refine ⟨[' '], List.forall_mem_singleton.mpr rfl, ?_⟩
        have lengthened : Token.blanked ⟨(nextToken before first rest).1.kind,
            (nextToken before first rest).1.text ++ [last]⟩ = _ :=
          Token.blanked_of_literal literal
        rw [Token.blanked_of_literal literal, ← List.replicate_succ', lengthened,
          List.length_append, List.length_singleton]

/-! ### Blanks at both ends -/

theorem areAlike_blank (blank : Text.isBlank last = true) : AreAlike [last] [] := by
  have noWord := Text.isWordCharacter_of_isBlank blank
  constructor
  · rw [mayOpenRaw, mayOpenRaw, Walk.decisive?_cons, if_neg (Text.ne_of_isBlank blank rfl),
      Option.any_some, noWord]
    rfl
  · rw [List.head?_cons, Option.any_some, noWord]
    rfl

theorem codeOnly_append_left {front : Line}
    (blanks : ∀ character ∈ front, Text.isBlank character = true) (line : Line) :
    codeOnly (front ++ line) = front ++ codeOnly line := by
  induction front with
  | nil => rfl
  | cons character front inductionHypothesis =>
    rw [List.forall_mem_cons] at blanks
    have first : codeOnly (character :: (front ++ line)) = _ :=
      codeAfter_cons_blank blanks.1 [] (front ++ line)
    rw [List.cons_append, List.cons_append, first, codeAfter_of_alike (areAlike_blank blanks.1)]
    exact congrArg _ (inductionHypothesis blanks.2)

theorem exists_codeOnly_append_right {back : Line}
    (blanks : ∀ character ∈ back, Text.isBlank character = true) (line : Line) :
    ∃ back', (∀ character ∈ back', Text.isBlank character = true) ∧
      codeOnly (line ++ back) = codeOnly line ++ back' := by
  induction back generalizing line with
  | nil => exact ⟨[], blanks, by rw [List.append_nil, List.append_nil]⟩
  | cons character back inductionHypothesis =>
    rw [List.forall_mem_cons] at blanks
    obtain ⟨later, blanks', follows⟩ := inductionHypothesis blanks.2 (line ++ [character])
    obtain ⟨first, blanks'', one⟩ := exists_codeAfter_concat blanks.1 [] line
    refine ⟨first ++ later, fun own member => ?_, ?_⟩
    · exact (List.mem_append.mp member).elim (blanks'' own) (blanks' own)
    · rw [List.append_cons, follows, ← List.append_assoc]
      exact congrArg (· ++ later) one

/-- The code of a line is the code of the trimmed line between blanks. -/
theorem exists_codeOnly_eq (line : Line) :
    ∃ front back, (∀ character ∈ front, Text.isBlank character = true) ∧
      (∀ character ∈ back, Text.isBlank character = true) ∧
      codeOnly line = front ++ (codeOnly (Text.trim line) ++ back) := by
  have front := List.takeWhile_append_dropWhile (p := Text.isBlank) (l := line)
  have back := congrArg List.reverse
    (List.takeWhile_append_dropWhile (p := Text.isBlank) (l := (Text.trimStart line).reverse))
  rw [List.reverse_append, List.reverse_reverse] at back
  have blanks : ∀ character ∈ ((Text.trimStart line).reverse.takeWhile Text.isBlank).reverse,
      Text.isBlank character = true := fun character member =>
    List.mem_takeWhile_imp (List.mem_reverse.mp member)
  obtain ⟨tail, blanks', code⟩ := exists_codeOnly_append_right blanks (Text.trim line)
  refine ⟨line.takeWhile Text.isBlank, tail, fun _ => List.mem_takeWhile_imp, blanks', ?_⟩
  rw [← code, ← codeOnly_append_left fun _ => List.mem_takeWhile_imp]
  exact congrArg codeOnly (front.symm.trans (congrArg (_ ++ ·) back.symm))

/-- Characters that are no blanks stand as often in the code of the trimmed line as in that of the
line. -/
theorem count_codeOnly_trim {mark : Char} (filled : Text.isBlank mark = false) (line : Line) :
    (codeOnly (Text.trim line)).count mark = (codeOnly line).count mark := by
  have none {blanks : Line} (all : ∀ character ∈ blanks, Text.isBlank character = true) :
      blanks.count mark = 0 :=
    List.count_eq_zero.mpr fun member => Bool.false_ne_true (filled.symm.trans (all mark member))
  obtain ⟨front, back, blanks, blanks', code⟩ := exists_codeOnly_eq line
  rw [code, List.count_append, List.count_append, none blanks, none blanks', Nat.zero_add,
    Nat.add_zero]

theorem getLast?_trimEnd (line : Line) :
    (Text.trimEnd line).getLast? = line.reverse.find? (!Text.isBlank ·) := by
  rw [Text.trimEnd, List.getLast?_reverse, ← List.find?_not_eq_head?_dropWhile]

/-- The code of the trimmed line ends with the same character, blanks aside. -/
theorem getLast?_trimEnd_codeOnly_trim (line : Line) :
    (Text.trimEnd (codeOnly (Text.trim line))).getLast? =
      (Text.trimEnd (codeOnly line)).getLast? := by
  have none {blanks : Line} (all : ∀ character ∈ blanks, Text.isBlank character = true) :
      blanks.reverse.find? (!Text.isBlank ·) = none :=
    List.find?_eq_none.mpr fun character member => by
      simp [all character (List.mem_reverse.mp member)]
  obtain ⟨front, back, blanks, blanks', code⟩ := exists_codeOnly_eq line
  rw [code, getLast?_trimEnd, getLast?_trimEnd, List.reverse_append, List.reverse_append,
    List.find?_append, List.find?_append, none blanks, none blanks', Option.none_or,
    Option.or_none]

end Rust

end CrateAudit
