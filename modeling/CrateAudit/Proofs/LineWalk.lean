/-
This file shows that a walk along a line asks for no character that the line does not
have and writes no state beside it: it has a result, and the states that it writes are
those of the tokens of the line.
-/

import CrateAudit.Proofs.CodeText
import CrateAudit.Rust.Walk

namespace CrateAudit.Rust.Walk

variable {line rest : Line} {index : Nat} {first : Char} {done : List State}

/-! ### States that are written -/

/-- States of characters that are not read yet. -/
abbrev unread (count : Nat) : List State := List.replicate count .normal

theorem length_snoc (same : done.length = index) (state : State) :
    (done ++ [state]).length = index + 1 := by
  rw [List.length_append, same]
  rfl

theorem fill?_append (state : State) (old later : List State) (same : done.length = index) :
    fill? state index old.length (done ++ (old ++ later)) =
      some (done ++ List.replicate old.length state ++ later) := by
  induction old generalizing done index with
  | nil => simp [fill?]
  | cons before old inductionHypothesis =>
    have inside : index < (done ++ (before :: old ++ later)).length := by
      simp only [List.length_append, List.length_cons]
      omega
    have written : (done ++ (before :: old ++ later)).set index state =
        (done ++ [state]) ++ (old ++ later) := by
      rw [List.set_append_right _ _ (by omega), same, Nat.sub_self]
      simp
    rw [List.length_cons, fill?, if_pos inside, written,
      inductionHypothesis (length_snoc same state)]
    simp [List.replicate_succ]

/-- States can be written for a piece of what is left. -/
theorem fill?_unread (state : State) (count more : Nat) (same : done.length = index) :
    fill? state index count (done ++ unread (count + more)) =
      some (done ++ List.replicate count state ++ unread more) := by
  have written := fill?_append state (unread count) (unread more) same
  rwa [List.length_replicate, List.replicate_append_replicate] at written

theorem fill?_unread_one (state : State) (more : Nat) (same : done.length = index) :
    fill? state index 1 (done ++ unread (more + 1)) = some (done ++ [state] ++ unread more) := by
  rw [Nat.add_comm]
  exact fill?_unread state 1 more same

/-! ### Openers and literals -/

theorem marksEnd?_eq (left : line.drop index = rest) :
    marksEnd? line index = some (index + (rest.takeWhile (· = '#')).length) := by
  induction rest generalizing index with
  | nil =>
    have none : ¬ index < line.length := by
      rw [List.drop_eq_nil_iff] at left
      omega
    rw [marksEnd?, if_neg none]
    rfl
  | cons character rest inductionHypothesis =>
    rw [marksEnd?, if_pos (lt_of_drop left), getElem?_of_drop left]
    simp only [Option.bind_eq_bind, Option.bind_some]
    by_cases mark : character = '#'
    · rw [if_pos mark, inductionHypothesis (drop_succ_of_drop left),
        List.takeWhile_cons_of_pos (by simpa using mark), List.length_cons, Nat.add_assoc,
        Nat.add_comm 1]
    · rw [if_neg mark, List.takeWhile_cons_of_neg (by simpa using mark)]
      rfl

theorem reverse_take_succ {text : Line} (inside : index < text.length) :
    (text.take (index + 1)).reverse = text[index] :: (text.take index).reverse := by
  rw [List.take_succ_eq_append_getElem inside, List.reverse_append]
  rfl

theorem decisive?_cons (character : Char) (before : Line) :
    decisive? (character :: before) =
      if character = 'b' then before.head? else some character := by
  by_cases prefixed : character = 'b'
  · rw [if_pos prefixed, prefixed]
    rfl
  · rw [if_neg prefixed, decisive?]
    exact prefixed

theorem decisiveBefore?_eq {text : Line} (inside : index ≤ text.length) :
    decisiveBefore? text index = some (decisive? (text.take index).reverse) := by
  cases index with
  | zero => rfl
  | succ index =>
    have here : index < text.length := inside
    rw [reverse_take_succ here, decisive?_cons, decisiveBefore?, if_pos (Nat.succ_pos index),
      Nat.add_sub_cancel, List.getElem?_eq_getElem here]
    simp only [Option.bind_eq_bind, Option.bind_some]
    by_cases prefixed : text[index] = 'b'
    · rw [if_pos prefixed, if_pos prefixed]
      cases index with
      | zero => rfl
      | succ index =>
        have earlier : index < text.length := by omega
        have back : index + 1 + 1 - 2 = index := rfl
        rw [reverse_take_succ earlier, if_pos (by omega), back, List.getElem?_eq_getElem earlier]
        rfl
    · rw [if_neg prefixed, if_neg prefixed]
      rfl

theorem isSome_rawString? (rest : Line) :
    (rawString? rest).isSome = true ↔ (rest.dropWhile (· = '#')).head? = some '"' := by
  rw [rawString?]
  split
  · rename_i body shape
    rw [shape]
    exact iff_of_true rfl rfl
  · rename_i other
    refine iff_of_false (by simp) fun quoted => ?_
    obtain ⟨body, shape⟩ := List.head?_eq_some_iff.mp quoted
    exact other body shape

theorem drop_marks (left : line.drop index = rest) :
    line.drop (index + (rest.takeWhile (· = '#')).length) = rest.dropWhile (· = '#') := by
  refine drop_add_of_drop (left.trans ?_)
  exact List.takeWhile_append_dropWhile.symm

/-- The opener of a raw string goes up to its quote. -/
theorem openerLength?_eq (left : line.drop index = first :: rest) :
    openerLength? line index = some
      (if first = 'r' ∧ mayOpenRaw (line.take index).reverse = true ∧
          (rawString? rest).isSome = true then
        (rest.takeWhile (· = '#')).length + 2
      else 0) := by
  have inside := lt_of_drop left
  have next := drop_succ_of_drop left
  have after := drop_marks next
  rw [openerLength?, getElem?_of_drop left]
  simp only [Option.bind_eq_bind, Option.bind_some, decisiveBefore?_eq (Nat.le_of_lt inside),
    marksEnd?_eq next, isSome_rawString?, mayOpenRaw]
  by_cases raw : first = 'r'
  · rw [if_pos raw]
    cases (decisive? (line.take index).reverse).any Text.isWordCharacter with
    | true => simp
    | false =>
      cases marked : rest.dropWhile (· = '#') with
      | nil =>
        rw [marked, List.drop_eq_nil_iff] at after
        simp [Nat.not_lt.mpr after]
      | cons character body =>
        rw [marked] at after
        rw [if_pos (lt_of_drop after), getElem?_of_drop after]
        by_cases quote : character = '"'
        · simp [raw, quote]
          omega
        · simp [quote]
  · rw [if_neg raw, if_neg fun opens => raw opens.1]
    rfl

/-- A character literal goes up to its apostrophe. -/
theorem characterLength?_eq (left : line.drop index = first :: rest) :
    characterLength? line index = some
      (if first = '\'' then ((characterLiteral? rest).map (1 + ·.1.length)).getD 0 else 0) := by
  have next := drop_succ_of_drop left
  rw [characterLength?, getElem?_of_drop left]
  simp only [Option.bind_eq_bind, Option.bind_some]
  by_cases apostrophe : first = '\''
  · rw [if_pos apostrophe]
    rcases rest with - | ⟨second, - | ⟨third, rest⟩⟩
    · rw [List.drop_eq_nil_iff] at next
      rw [if_neg (by omega)]
      rfl
    · have last := drop_succ_of_drop next
      rw [List.drop_eq_nil_iff] at last
      rw [if_neg (by omega), characterLiteral?]
      · rfl
      · simp
      · simp
    · have last := drop_succ_of_drop next
      have later := drop_succ_of_drop last
      rw [if_pos ⟨apostrophe, lt_of_drop last⟩, getElem?_of_drop next, getElem?_of_drop last,
        later]
      simp only [Option.bind_some]
      by_cases escape : second = '\\'
      · subst escape
        rw [if_pos rfl, characterLiteral?]
        cases throughApostrophe? 9 rest with
        | none => rfl
        | some parts =>
          simp only [Option.map_some, Option.getD_some, List.length_cons, Option.pure_def]
          congr 1
          omega
      · rw [if_neg escape, characterLiteral?]
        · by_cases closing : third = '\''
          · simp [escape, closing]
          · simp [closing]
        · exact escape
  · rw [if_neg apostrophe, if_neg fun quotes => apostrophe quotes.1]
    rfl

theorem openerLength?_of_ne (left : line.drop index = first :: rest) (other : first ≠ 'r') :
    openerLength? line index = some 0 := by
  rw [openerLength?_eq left, if_neg fun opens => other opens.1]

theorem characterLength?_of_ne (left : line.drop index = first :: rest)
    (other : first ≠ '\'') : characterLength? line index = some 0 := by
  rw [characterLength?_eq left, if_neg other]

/-! ### Literals -/

theorem walk?_of_end (left : line.drop index = []) (state : State) (escaped : Bool)
    (states : List State) : walk? line state escaped index states = some ⟨states, none⟩ := by
  rw [List.drop_eq_nil_iff] at left
  rw [walk?, if_neg (by omega)]
  rfl

theorem walk?_inRawString_cons (left : line.drop index = first :: rest)
    (same : done.length = index) :
    walk? line .inRawString false index (done ++ unread (first :: rest).length) =
      walk? line (if first = '"' then .normal else .inRawString) false (index + 1)
        (done ++ [.inRawString] ++ unread rest.length) := by
  rw [List.length_cons, walk?, if_pos (lt_of_drop left), getElem?_of_drop left]
  simp only [Option.bind_eq_bind, Option.bind_some, fill?_unread_one _ _ same]
  split <;> rfl

/-- A piece that has been written after its first character has been written as a whole. -/
theorem walk?_past_cons (line : Line) (index : Nat) (done : List State) (state : State)
    (count more : Nat) :
    walk? line .normal false (index + 1 + count)
        (done ++ [state] ++ List.replicate count state ++ unread more) =
      walk? line .normal false (index + (count + 1))
        (done ++ List.replicate (count + 1) state ++ unread more) := by
  rw [Nat.add_assoc, Nat.add_comm 1, List.append_assoc done, List.singleton_append,
    ← List.replicate_succ]

/-- The walk through a raw string comes out after its quote. -/
theorem walk?_inRawString (left : line.drop index = rest) (same : done.length = index) :
    walk? line .inRawString false index (done ++ unread rest.length) =
      walk? line .normal false (index + (throughQuote rest).1.length)
        (done ++ List.replicate (throughQuote rest).1.length .inRawString ++
          unread (throughQuote rest).2.length) := by
  induction rest generalizing index done with
  | nil =>
    rw [walk?_of_end left, throughQuote, walk?_of_end (by simpa using left)]
    simp
  | cons character rest inductionHypothesis =>
    rw [walk?_inRawString_cons left same, throughQuote]
    by_cases quote : character = '"'
    · rw [if_pos quote, if_pos quote]
      rfl
    · rw [if_neg quote, if_neg quote]
      exact (inductionHypothesis (drop_succ_of_drop left) (length_snoc same _)).trans
        (walk?_past_cons line index done _ _ _)

theorem walk?_inString_cons (left : line.drop index = first :: rest) (same : done.length = index)
    (escaped : Bool) :
    walk? line .inString escaped index (done ++ unread (first :: rest).length) =
      walk? line (if !escaped && first = '"' then .normal else .inString)
        (!escaped && first = '\\') (index + 1)
        (done ++ [.inString] ++ unread rest.length) := by
  rw [List.length_cons, walk?, if_pos (lt_of_drop left), getElem?_of_drop left]
  simp only [Option.bind_eq_bind, Option.bind_some, fill?_unread_one _ _ same]
  cases escaped with
  | true => rfl
  | false =>
    by_cases escape : first = '\\'
    · subst escape
      rfl
    · by_cases quote : first = '"'
      · subst quote
        rfl
      · simp [escape, quote]

/-- The walk through a string comes out after the first quote that is not escaped. -/
theorem walk?_inString (left : line.drop index = rest) (same : done.length = index) :
    walk? line .inString false index (done ++ unread rest.length) =
      walk? line .normal false (index + (throughPlainQuote rest).1.length)
        (done ++ List.replicate (throughPlainQuote rest).1.length .inString ++
          unread (throughPlainQuote rest).2.length) := by
  fun_induction throughPlainQuote rest generalizing index done with
  | case1 =>
    rw [walk?_of_end left, walk?_of_end (by simpa using left)]
    simp
  | case2 escaped rest later =>
    rename_i inductionHypothesis
    have next := drop_succ_of_drop left
    have reached := length_snoc same .inString
    refine (walk?_inString_cons left same false).trans ?_
    refine (walk?_inString_cons next reached true).trans ?_
    refine (inductionHypothesis (drop_succ_of_drop next) (length_snoc reached _)).trans ?_
    refine (walk?_past_cons line (index + 1) (done ++ [.inString]) _ _ _).trans ?_
    exact walk?_past_cons line index done _ _ _
  | case3 rest =>
    exact walk?_inString_cons left same false
  | case4 character rest noEscape quote later =>
    rename_i inductionHypothesis
    have plain : (!false && decide (character = '"')) = false := by simpa using quote
    rw [walk?_inString_cons left same, plain, if_neg Bool.false_ne_true]
    by_cases escape : character = '\\'
    · -- A backslash at the end of the line escapes nothing.
      cases rest with
      | nil =>
        have last := drop_succ_of_drop left
        rw [walk?_of_end last, walk?_of_end (by simpa [later, throughPlainQuote] using last)]
        simp [later, throughPlainQuote]
      | cons escaped rest => exact (noEscape escaped rest escape rfl).elim
    · rw [decide_eq_false escape]
      exact (inductionHypothesis (drop_succ_of_drop left) (length_snoc same _)).trans
        (walk?_past_cons line index done _ _ _)

/-! ### Tokens -/

/-- Where a token that is no comment has been written. -/
def afterToken (line : Line) (index : Nat) (done : List State) (step : Token × Line) :
    Option Lexing :=
  walk? line .normal false (index + step.1.text.length)
    (done ++ step.1.states ++ unread step.2.length)

/-- A character of code keeps the state that it has before it is read. -/
theorem afterToken_code (line : Line) (index : Nat) (done : List State) (first : Char)
    (rest : Line) :
    afterToken line index done (⟨.code, [first]⟩, rest) =
      walk? line .normal false (index + 1) (done ++ unread (first :: rest).length) := by
  simp [afterToken, Token.states, TokenKind.state, List.replicate_succ]

theorem isPrefixOf_slashes (first : Char) (rest : Line) :
    ['/', '/'].isPrefixOf (first :: rest) = true ↔ first = '/' ∧ rest.head? = some '/' := by
  rw [List.isPrefixOf_iff_prefix, List.cons_prefix_cons, List.head?_eq_some_iff]
  constructor
  · rintro ⟨rfl, tail, rfl⟩
    exact ⟨rfl, tail, rfl⟩
  · rintro ⟨rfl, tail, rfl⟩
    exact ⟨rfl, tail, rfl⟩

theorem walk?_comment (left : line.drop index = first :: rest)
    (comment : first = '/' ∧ rest.head? = some '/') (states : List State) :
    walk? line .normal false index states = some ⟨states, some index⟩ := by
  rw [walk?, if_pos (lt_of_drop left), getElem?_of_drop left]
  simp only [Option.bind_eq_bind, Option.bind_some, left]
  rw [if_pos ((isPrefixOf_slashes first rest).mpr comment)]
  rfl

/-- Where no comment starts, the walk goes on after what opens. -/
theorem walk?_normal_cons (left : line.drop index = first :: rest)
    (noComment : ¬ (first = '/' ∧ rest.head? = some '/')) {opener : Nat}
    (opens : openerLength? line index = some opener) (states : List State) :
    walk? line .normal false index states =
      if 0 < opener then
        (fill? .inRawString index opener states).bind
          (walk? line .inRawString false (index + opener))
      else if first = '"' then
        (fill? .inString index 1 states).bind (walk? line .inString false (index + 1))
      else
        (characterLength? line index).bind fun length =>
          if 0 < length then
            (fill? .inString index length states).bind
              (walk? line .normal false (index + length))
          else walk? line .normal false (index + 1) states := by
  rw [walk?, if_pos (lt_of_drop left), getElem?_of_drop left]
  simp only [Option.bind_eq_bind, Option.bind_some, left, opens]
  rw [if_neg ((isPrefixOf_slashes first rest).not.mpr noComment)]

theorem walk?_rawString (left : line.drop index = first :: rest) (same : done.length = index)
    (raw : first = 'r' ∧ mayOpenRaw (line.take index).reverse = true) {parts : Line × Line}
    (found : rawString? rest = some parts) :
    walk? line .normal false index (done ++ unread (first :: rest).length) =
      afterToken line index done (⟨.rawString, first :: parts.1⟩, parts.2) := by
  have opens : openerLength? line index = some ((rest.takeWhile (· = '#')).length + 2) := by
    rw [openerLength?_eq left, if_pos ⟨raw.1, raw.2, by rw [found]; rfl⟩]
  rw [walk?_normal_cons left (by simp [raw.1]) opens, if_pos (Nat.succ_pos _)]
  rw [rawString?] at found
  split at found
  · rename_i body shape
    cases found
    have whole : first :: rest = (first :: (rest.takeWhile (· = '#') ++ ['"'])) ++ body := by
      rw [List.cons_append, List.append_assoc, List.singleton_append, ← shape,
        List.takeWhile_append_dropWhile]
    have length : (first :: (rest.takeWhile (· = '#') ++ ['"'])).length =
        (rest.takeWhile (· = '#')).length + 2 := by
      rw [List.length_cons, List.length_append]
      rfl
    have later := drop_add_of_drop (left.trans whole)
    have written := fill?_unread .inRawString ((rest.takeWhile (· = '#')).length + 2) body.length
      same
    rw [whole, List.length_append, length, written]
    rw [length] at later
    simp only [Option.bind_some]
    have text : (first :: (rest.takeWhile (· = '#') ++ '"' :: (throughQuote body).1)).length =
        (rest.takeWhile (· = '#')).length + 2 + (throughQuote body).1.length := by
      simp only [List.length_cons, List.length_append]
      omega
    rw [walk?_inRawString later (by rw [List.length_append, same, List.length_replicate]),
      afterToken]
    simp only [Token.states, TokenKind.state, text, ← List.replicate_append_replicate,
      List.append_assoc, Nat.add_assoc]
  · cases found

theorem walk?_string (left : line.drop index = first :: rest) (same : done.length = index)
    (quote : first = '"') :
    walk? line .normal false index (done ++ unread (first :: rest).length) =
      afterToken line index done
        (⟨.string, first :: (throughPlainQuote rest).1⟩, (throughPlainQuote rest).2) := by
  have opens := openerLength?_of_ne left (by simp [quote])
  rw [walk?_normal_cons left (by simp [quote]) opens, if_neg (Nat.lt_irrefl 0), if_pos quote,
    List.length_cons, fill?_unread_one _ _ same]
  simp only [Option.bind_some]
  exact (walk?_inString (drop_succ_of_drop left) (length_snoc same _)).trans
    (walk?_past_cons line index done _ _ _)

theorem walk?_character (left : line.drop index = first :: rest) (same : done.length = index)
    (apostrophe : first = '\'') {parts : Line × Line}
    (found : characterLiteral? rest = some parts) :
    walk? line .normal false index (done ++ unread (first :: rest).length) =
      afterToken line index done (⟨.character, first :: parts.1⟩, parts.2) := by
  have opens := openerLength?_of_ne left (by simp [apostrophe])
  have literal : characterLength? line index = some (1 + parts.1.length) := by
    rw [characterLength?_eq left, if_pos apostrophe, found]
    rfl
  have length : (first :: rest).length = 1 + parts.1.length + parts.2.length := by
    rw [← characterLiteral?_append found, List.length_cons, List.length_append]
    omega
  rw [walk?_normal_cons left (by simp [apostrophe]) opens, if_neg (Nat.lt_irrefl 0),
    if_neg (by simp [apostrophe]), literal]
  simp only [Option.bind_some]
  rw [if_pos (by omega), length, fill?_unread _ _ _ same, afterToken]
  simp only [Option.bind_some, Token.states, TokenKind.state, List.length_cons, Nat.add_comm 1]

theorem walk?_code (left : line.drop index = first :: rest)
    (noComment : ¬ (first = '/' ∧ rest.head? = some '/'))
    (noOpener : openerLength? line index = some 0) (noQuote : first ≠ '"')
    (noLiteral : characterLength? line index = some 0) :
    walk? line .normal false index (done ++ unread (first :: rest).length) =
      afterToken line index done (⟨.code, [first]⟩, rest) := by
  rw [walk?_normal_cons left noComment noOpener, if_neg (Nat.lt_irrefl 0), if_neg noQuote,
    noLiteral, afterToken_code]
  rfl

/-- The walk reads one token after another. -/
theorem walk?_token (left : line.drop index = first :: rest) (same : done.length = index) :
    walk? line .normal false index (done ++ unread (first :: rest).length) =
      if (nextToken (line.take index).reverse first rest).1.kind = .comment then
        some ⟨done ++ unread (first :: rest).length, some index⟩
      else afterToken line index done (nextToken (line.take index).reverse first rest) := by
  rw [nextToken]
  by_cases comment : first = '/' ∧ rest.head? = some '/'
  · rw [if_pos comment]
    exact walk?_comment left comment _
  rw [if_neg comment]
  by_cases raw : first = 'r' ∧ mayOpenRaw (line.take index).reverse = true
  · rw [if_pos raw]
    cases found : rawString? rest with
    | some parts => exact walk?_rawString left same raw found
    | none =>
      have noOpener : openerLength? line index = some 0 := by
        rw [openerLength?_eq left, if_neg (by simp [found])]
      exact walk?_code left comment noOpener (by simp [raw.1])
        (characterLength?_of_ne left (by simp [raw.1]))
  have noOpener : openerLength? line index = some 0 := by
    rw [openerLength?_eq left, if_neg fun opens => raw ⟨opens.1, opens.2.1⟩]
  rw [if_neg raw]
  by_cases quote : first = '"'
  · rw [if_pos quote]
    exact walk?_string left same quote
  rw [if_neg quote]
  by_cases apostrophe : first = '\''
  · rw [if_pos apostrophe]
    cases found : characterLiteral? rest with
    | some parts => exact walk?_character left same apostrophe found
    | none =>
      have noLiteral : characterLength? line index = some 0 := by
        rw [characterLength?_eq left, if_pos apostrophe, found]
        rfl
      exact walk?_code left comment noOpener quote noLiteral
  · rw [if_neg apostrophe]
    exact walk?_code left comment noOpener quote (characterLength?_of_ne left apostrophe)

/-! ### The whole line -/

theorem commentStartFrom_of_comment {token : Token} (comment : token.kind = .comment)
    (index : Nat) (others : List Token) :
    commentStartFrom index (token :: others) = some index := by
  rw [commentStartFrom, comment]

theorem commentStartFrom_of_ne {token : Token} (other : token.kind ≠ .comment) (index : Nat)
    (others : List Token) :
    commentStartFrom index (token :: others) =
      commentStartFrom (index + token.text.length) others := by
  rw [commentStartFrom]
  split
  · exact absurd ‹_› other
  · rfl

/-- From a place between two tokens on, the walk writes the states of the tokens that follow. -/
theorem walk?_normal {line rest : Line} {index : Nat} {done : List State}
    (left : line.drop index = rest) (same : done.length = index) :
    walk? line .normal false index (done ++ unread rest.length) =
      some ⟨done ++ (tokensAfter (line.take index).reverse rest).flatMap Token.states,
        commentStartFrom index (tokensAfter (line.take index).reverse rest)⟩ := by
  match rest with
  | [] =>
    rw [walk?_of_end left, tokensAfter]
    rfl
  | first :: rest =>
    have whole := nextToken_append (line.take index).reverse first rest
    have shorter := nextToken_length (line.take index).reverse first rest
    rw [walk?_token left same, tokensAfter, List.flatMap_cons]
    generalize next : nextToken (line.take index).reverse first rest = step at whole shorter ⊢
    by_cases comment : step.1.kind = .comment
    · have none : step.2 = [] := by
        rw [← next] at comment ⊢
        exact nextToken_snd_of_comment comment
      rw [none, List.append_nil] at whole
      rw [if_pos comment, commentStartFrom_of_comment comment, none, tokensAfter, ← whole,
        Token.states, comment]
      simp [TokenKind.state]
    · have before : step.1.text.reverse ++ (line.take index).reverse =
          (line.take (index + step.1.text.length)).reverse := by
        rw [take_add_of_drop (left.trans whole.symm), List.reverse_append]
      rw [if_neg comment, commentStartFrom_of_ne comment, afterToken, before,
        walk?_normal (drop_add_of_drop (left.trans whole.symm))
          (by rw [List.length_append, same, Token.states, List.length_replicate]),
        List.append_assoc]
  termination_by rest.length
  decreasing_by
    simp only [List.length_cons]
    omega

/-- The walk along a line reads no character and writes no state that the line does not have. -/
theorem lex?_eq (line : Line) : lex? line = some (lex line) := by
  have whole := @walk?_normal line line 0 [] List.drop_zero rfl
  exact whole

/-! ### Code -/

theorem mapM_inCode (shown : Line) {states : List State} {offset : Nat}
    (enough : offset + shown.length ≤ states.length) :
    ((shown.zipIdx offset).mapM fun place => do
        let state ← states[place.2]?
        return inCode place.1 state) =
      some (List.zipWith inCode shown (states.drop offset)) := by
  induction shown generalizing offset with
  | nil => rfl
  | cons character shown inductionHypothesis =>
    rw [List.length_cons] at enough
    have inside : offset < states.length := by omega
    have later := @inductionHypothesis (offset + 1) (by omega)
    rw [List.zipIdx_cons, List.mapM_cons, later, List.drop_eq_getElem_cons inside,
      List.getElem?_eq_getElem inside]
    rfl

theorem zipWith_states (token : Token) (other : token.kind ≠ .comment) :
    List.zipWith inCode token.text token.states = token.blanked := by
  obtain ⟨kind, text⟩ := token
  have blank (state : State) : List.zipWith inCode text (List.replicate text.length state) =
      text.map (inCode · state) := by
    induction text with
    | nil => rfl
    | cons character text inductionHypothesis =>
      rw [List.length_cons, List.replicate_succ, List.zipWith_cons_cons, List.map_cons,
        inductionHypothesis other]
  rw [Token.states, blank]
  cases kind with
  | comment => exact absurd rfl other
  | code => exact List.map_id _
  | _ => simp [Token.blanked, TokenKind.state, inCode]

theorem zipWith_tokensAfter (before rest : Line) :
    List.zipWith inCode
        (rest.take ((commentStartFrom 0 (tokensAfter before rest)).getD rest.length))
        ((tokensAfter before rest).flatMap Token.states) =
      (tokensAfter before rest).flatMap Token.blanked := by
  fun_induction tokensAfter before rest with
  | case1 => rfl
  | case2 before first rest step inductionHypothesis =>
    have whole : step.1.text ++ step.2 = first :: rest := nextToken_append before first rest
    rw [List.flatMap_cons, List.flatMap_cons, ← whole]
    by_cases comment : step.1.kind = .comment
    · have none : step.2 = [] := nextToken_snd_of_comment comment
      rw [commentStartFrom_of_comment comment, none, tokensAfter, Token.blanked, comment]
      rfl
    · have start := commentStartFrom_add step.1.text.length 0
        (tokensAfter (step.1.text.reverse ++ before) step.2)
      rw [commentStartFrom_of_ne comment, Nat.zero_add, ← Nat.add_zero step.1.text.length, start,
        List.length_append, Option.getD_map, List.take_add, List.take_left, List.drop_left,
        List.zipWith_append (by rw [Token.states, List.length_replicate]),
        zipWith_states _ comment, inductionHypothesis]

/-- What is left of a line is read without asking for a state that it does not have. -/
theorem codeOnly?_eq (line : Line) : codeOnly? line = some (codeOnly line) := by
  have enough : 0 + (line.take ((lex line).commentStart.getD line.length)).length ≤
      (lex line).states.length := by
    rw [length_lex_states, Nat.zero_add]
    exact List.length_take_le' _ _
  rw [codeOnly?, lex?_eq]
  exact (mapM_inCode _ enough).trans (congrArg some (zipWith_tokensAfter [] line))

end CrateAudit.Rust.Walk
