/-
This file says what becomes of a line in which stretches are replaced by a `?` each: every
character outside of them stays, in order. If the stretches are calls in code, from a dot
to a parenthesis, the rest of the line is lexed as before. No literal that is left changes,
as none reaches over the ends of a stretch; no slash and no mark of a raw string is joined
to another, as the `?` stands between; and an `r` that a name does not end before still has
none before it. So the code of the new line is the code of the old one with the same
stretches replaced.
-/

import CrateAudit.Fix.Plan
import CrateAudit.Proofs.Tokenisation

namespace CrateAudit

namespace Fix

/-! ### What is left of a line -/

/-- Stretches one after another, none of them empty, from an offset on. -/
def InOrder (offset : Nat) : List Span → Prop
  | [] => True
  | span :: rest => offset ≤ span.1 ∧ span.1 < span.2 ∧ InOrder span.2 rest

variable {offset : Nat} {spans : List Span} {span : Span} {line : Line}

theorem InOrder.bounds (inOrder : InOrder offset spans) (member : span ∈ spans) :
    offset ≤ span.1 ∧ span.1 < span.2 := by
  induction spans generalizing offset with
  | nil => cases member
  | cons first rest inductionHypothesis =>
    obtain ⟨after, filled, later⟩ := inOrder
    rcases List.mem_cons.mp member with rfl | inside
    · exact ⟨after, filled⟩
    · obtain ⟨after', filled'⟩ := inductionHypothesis later inside
      exact ⟨by omega, filled'⟩

/-- What is left of the character at an offset: a question mark where a stretch begins, nothing
further on in it, and the character itself outside. -/
def leftAt (spans : List Span) (place : Char × Nat) : Line :=
  if ∃ span ∈ spans, span.1 = place.2 then ['?']
  else if ∃ span ∈ spans, span.1 < place.2 ∧ place.2 < span.2 then []
  else [place.1]

theorem leftAt_of_outside (filled : ∀ span ∈ spans, span.1 < span.2) {place : Char × Nat}
    (outside : ∀ span ∈ spans, span.2 ≤ place.2 ∨ place.2 < span.1) :
    leftAt spans place = [place.1] := by
  rw [leftAt, if_neg, if_neg]
  · rintro ⟨span, member, after, before⟩
    have := outside span member
    omega
  · rintro ⟨span, member, here⟩
    have := outside span member
    have := filled span member
    omega

/-- A piece between the stretches is left as it is. -/
theorem flatMap_leftAt_of_outside (filled : ∀ span ∈ spans, span.1 < span.2)
    (outside : ∀ span ∈ spans, span.2 ≤ offset ∨ offset + line.length ≤ span.1) :
    (line.zipIdx offset).flatMap (leftAt spans) = line := by
  have alone : ∀ place ∈ line.zipIdx offset, leftAt spans place = [place.1] := by
    intro place member
    have after := List.le_snd_of_mem_zipIdx member
    have before := List.snd_lt_add_of_mem_zipIdx member
    refine leftAt_of_outside filled fun span inside => ?_
    have := outside span inside
    omega
  rw [List.flatMap_congr alone, ← List.map_eq_flatMap, List.zipIdx_map_fst]

/-- Of a stretch the question mark is left. -/
theorem flatMap_leftAt_of_inside {inner : Line} (filled : inner ≠ [])
    (whole : span.2 = span.1 + inner.length) (later : InOrder span.2 spans) :
    (inner.zipIdx span.1).flatMap (leftAt (span :: spans)) = ['?'] := by
  obtain ⟨first, inner, rfl⟩ := List.exists_cons_of_ne_nil filled
  have start : leftAt (span :: spans) (first, span.1) = ['?'] :=
    if_pos ⟨span, List.mem_cons_self, rfl⟩
  have gone : ∀ place ∈ inner.zipIdx (span.1 + 1), leftAt (span :: spans) place = [] := by
    intro place member
    have after := List.le_snd_of_mem_zipIdx member
    have before := List.snd_lt_add_of_mem_zipIdx member
    rw [List.length_cons] at whole
    rw [leftAt, if_neg, if_pos ⟨span, List.mem_cons_self, by omega, by omega⟩]
    rintro ⟨other, inside, here⟩
    rcases List.mem_cons.mp inside with rfl | inside
    · omega
    · have := later.bounds inside
      omega
  rw [List.zipIdx_cons, List.flatMap_cons, start, List.flatMap_congr gone]
  simp

/-- Behind a stretch the others decide. -/
theorem flatMap_leftAt_of_behind (filled : span.1 < span.2) :
    (line.zipIdx span.2).flatMap (leftAt (span :: spans)) =
      (line.zipIdx span.2).flatMap (leftAt spans) := by
  refine List.flatMap_congr fun place member => ?_
  have after := List.le_snd_of_mem_zipIdx member
  have apart : span.1 ≠ place.2 := by omega
  have apart' : ¬ (span.1 < place.2 ∧ place.2 < span.2) := by omega
  simp only [leftAt, List.exists_mem_cons_iff, apart, apart', false_or]

theorem replaceSpans_append {front inner rest : Line} (start : span.1 = offset + front.length)
    (finish : span.2 = span.1 + inner.length) :
    replaceSpans offset (span :: spans) (front ++ (inner ++ rest)) =
      front ++ '?' :: replaceSpans span.2 spans rest := by
  have before : span.1 - offset = front.length := by omega
  have after : span.2 - offset = (front ++ inner).length := by
    rw [List.length_append]
    omega
  rw [replaceSpans, before, List.take_left, after, ← List.append_assoc, List.drop_left]

/-- A line around its first stretch. -/
theorem exists_pieces (inOrder : InOrder offset (span :: spans))
    (within : span.2 ≤ offset + line.length) :
    ∃ front inner rest : Line, line = front ++ (inner ++ rest) ∧
      span.1 = offset + front.length ∧ inner ≠ [] ∧ span.2 = span.1 + inner.length := by
  obtain ⟨after, filled, _⟩ := inOrder
  refine ⟨line.take (span.1 - offset), (line.drop (span.1 - offset)).take (span.2 - span.1),
    (line.drop (span.1 - offset)).drop (span.2 - span.1), ?_, ?_, ?_, ?_⟩
  · rw [List.take_append_drop, List.take_append_drop]
  · rw [List.length_take]
    omega
  · rw [← List.length_pos_iff, List.length_take, List.length_drop]
    omega
  · rw [List.length_take, List.length_drop]
    omega

/-- Stretches are replaced where they stand, and the rest is left. -/
theorem replaceSpans_eq_flatMap (inOrder : InOrder offset spans)
    (within : ∀ span ∈ spans, span.2 ≤ offset + line.length) :
    replaceSpans offset spans line = (line.zipIdx offset).flatMap (leftAt spans) := by
  induction spans generalizing offset line with
  | nil =>
    have none : ∀ span ∈ ([] : List Span), span.2 ≤ offset ∨ offset + line.length ≤ span.1 :=
      fun _ member => absurd member List.not_mem_nil
    exact (flatMap_leftAt_of_outside (fun _ member => absurd member List.not_mem_nil) none).symm
  | cons span rest inductionHypothesis =>
    obtain ⟨front, inner, later, rfl, start, filled, finish⟩ :=
      exists_pieces inOrder (within span List.mem_cons_self)
    have frontLeft : (front.zipIdx offset).flatMap (leftAt (span :: rest)) = front :=
      flatMap_leftAt_of_outside (fun own member => (inOrder.bounds member).2) fun own member => by
        have first : span.1 ≤ own.1 := by
          rcases List.mem_cons.mp member with rfl | inside
          · exact Nat.le_refl _
          · have := inOrder.2.2.bounds inside
            omega
        omega
    have laterLeft : replaceSpans span.2 rest later =
        (later.zipIdx span.2).flatMap (leftAt rest) :=
      inductionHypothesis inOrder.2.2 fun own member => by
        have := within own (List.mem_cons_of_mem _ member)
        simp only [List.length_append] at this
        omega
    rw [replaceSpans_append start finish, List.zipIdx_append, List.flatMap_append, frontLeft,
      ← start, List.zipIdx_append, List.flatMap_append,
      flatMap_leftAt_of_inside filled finish inOrder.2.2, ← finish,
      flatMap_leftAt_of_behind inOrder.2.1, laterLeft]
    rfl

/-- A text that a separator does not stand in stands before it or after it. -/
theorem infix_append_cons {sought front rest : Line} {stop : Char} (apart : stop ∉ sought)
    (inside : sought <:+: front ++ stop :: rest) : sought <:+: front ∨ sought <:+: rest := by
  obtain ⟨before, after, whole⟩ := inside
  rcases List.append_eq_append_iff.mp whole with ⟨gap, rfl, -⟩ | ⟨gap, reached, left⟩
  · exact Or.inl ⟨before, gap, rfl⟩
  rcases List.append_eq_append_iff.mp reached with ⟨gap', rfl, rfl⟩ | ⟨gap', rfl, rfl⟩
  · cases gap with
    | nil => exact Or.inl ⟨before, [], by simp⟩
    | cons first gap =>
      cases (List.cons_eq_cons.mp left).1
      exact absurd (List.mem_append_right _ List.mem_cons_self) apart
  · cases gap' with
    | nil =>
      cases sought with
      | nil => exact Or.inl List.nil_infix
      | cons first sought =>
        cases (List.cons_eq_cons.mp left).1
        exact absurd List.mem_cons_self apart
    | cons first gap' =>
      exact Or.inr ⟨gap', after, (List.cons_eq_cons.mp left).2.symm⟩

/-- A text without question marks that stands in what is left stands in the line, outside of the
stretches. -/
theorem exists_prefix_drop_of_infix {sought : Line} (filled : sought ≠ []) (noMark : '?' ∉ sought)
    (inOrder : InOrder offset spans) (within : ∀ span ∈ spans, span.2 ≤ offset + line.length)
    (inside : sought <:+: replaceSpans offset spans line) :
    ∃ start, offset ≤ start ∧ sought <+: line.drop (start - offset) ∧
      ∀ span ∈ spans, start < span.1 ∨ span.2 ≤ start := by
  induction spans generalizing offset line with
  | nil =>
    obtain ⟨before, after, whole⟩ := inside
    refine ⟨offset + before.length, Nat.le_add_right _ _, ?_,
      fun _ member => absurd member List.not_mem_nil⟩
    rw [Nat.add_sub_cancel_left, ← show _ = line from whole, List.append_assoc, List.drop_left]
    exact List.prefix_append _ _
  | cons span rest inductionHypothesis =>
    obtain ⟨front, inner, later, rfl, start, _, finish⟩ :=
      exists_pieces inOrder (within span List.mem_cons_self)
    rw [replaceSpans_append start finish] at inside
    rcases infix_append_cons noMark inside with ⟨before, after, rfl⟩ | behind
    · refine ⟨offset + before.length, Nat.le_add_right _ _, ?_, fun own member => ?_⟩
      · rw [Nat.add_sub_cancel_left, List.append_assoc, List.append_assoc, List.drop_left]
        exact List.prefix_append _ _
      · have size := List.length_pos_iff.mpr filled
        simp only [List.length_append] at start
        rcases List.mem_cons.mp member with rfl | other
        · exact Or.inl (by omega)
        · have := inOrder.2.2.bounds other
          exact Or.inl (by omega)
    · obtain ⟨place, after, stands, outside⟩ := inductionHypothesis inOrder.2.2
        (fun own member => by
          have := within own (List.mem_cons_of_mem _ member)
          simp only [List.length_append] at this
          omega) behind
      refine ⟨place, by omega, ?_, List.forall_mem_cons.mpr ⟨Or.inr after, outside⟩⟩
      have shift : place - offset = (front ++ inner).length + (place - span.2) := by
        rw [List.length_append]
        omega
      rw [shift, ← List.drop_drop, ← List.append_assoc, List.drop_left]
      exact stands

end Fix

namespace Rust

/-! ### Where a line can be cut -/

/-- The characters at the ends of a call, and the one that stands for it. -/
def callEnds : Line := ['.', ')', '?']

/-- Texts that let the same literals begin after them. -/
structure AreAlike (before before' : Line) : Prop where
  opens : mayOpenRaw before = mayOpenRaw before'
  name : before.head?.any Text.isWordCharacter = before'.head?.any Text.isWordCharacter

theorem AreAlike.cons {before before' : Line} (alike : AreAlike before before')
    (character : Char) : AreAlike (character :: before) (character :: before') where
  opens := by
    rw [mayOpenRaw, mayOpenRaw, Walk.decisive?_cons, Walk.decisive?_cons]
    split
    · rw [alike.name]
    · rfl
  name := rfl

theorem AreAlike.append {before before' : Line} (alike : AreAlike before before') (text : Line) :
    AreAlike (text ++ before) (text ++ before') := by
  induction text with
  | nil => exact alike
  | cons character text inductionHypothesis => exact inductionHypothesis.cons character

theorem codeAfter_of_alike {before before' : Line} (alike : AreAlike before before')
    (line : Line) : codeAfter before line = codeAfter before' line := by
  fun_induction tokensAfter before line generalizing before' with
  | case1 before => rw [codeAfter_nil, codeAfter_nil]
  | case2 before first rest step =>
    rename_i inductionHypothesis
    have same : nextToken before first rest = nextToken before' first rest := by
      rw [nextToken, nextToken, alike.opens]
    rw [codeAfter_cons, codeAfter_cons, ← same]
    exact congrArg _ (inductionHypothesis (alike.append _))

theorem areAlike_callEnds {first second : Char} (ends : first ∈ callEnds)
    (ends' : second ∈ callEnds) (before before' : Line) :
    AreAlike (first :: before) (second :: before') := by
  have noName : ∀ stop ∈ callEnds, Text.isWordCharacter stop = false ∧ stop ≠ 'b' :=
    List.forall_iff_forall_mem.mp (by decide)
  obtain ⟨noWord, other⟩ := noName first ends
  obtain ⟨noWord', other'⟩ := noName second ends'
  constructor
  · rw [mayOpenRaw, mayOpenRaw, Walk.decisive?_cons, Walk.decisive?_cons, if_neg other,
      if_neg other', Option.any_some, Option.any_some, noWord, noWord']
  · rw [List.head?_cons, List.head?_cons, Option.any_some, Option.any_some, noWord, noWord']

/-- A character at the end of a call is code wherever it is not in a literal or a comment. -/
theorem codeAfter_callEnd {stop : Char} (ends : stop ∈ callEnds) (before rest : Line) :
    codeAfter before (stop :: rest) = stop :: codeAfter (stop :: before) rest := by
  have plain : ∀ stop ∈ callEnds, stop ≠ '/' ∧ stop ≠ '"' ∧ stop ≠ '\'' ∧ stop ≠ 'r' :=
    List.forall_iff_forall_mem.mp (by decide)
  obtain ⟨noSlash, noQuote, noApostrophe, noRaw⟩ := plain stop ends
  exact codeAfter_of_code
    (nextToken_of_plain noSlash noQuote noApostrophe (fun raw => absurd raw noRaw) rest)

/-- A literal is the next token whatever follows it. -/
theorem Token.IsNext.of_literal {before rest later : Line} {token : Token}
    (isNext : token.IsNext before rest) (follows : rest ≠ [])
    (literal : token.kind = .rawString ∨ token.kind = .string ∨ token.kind = .character) :
    token.IsNext before later := by
  obtain ⟨kind, text⟩ := token
  have goesOn {closes : Line → Prop} {body : Line} (goes : GoesToQuote closes body rest) :
      GoesToQuote closes body later :=
    ⟨goes.first, Or.inl (goes.ends.resolve_right follows)⟩
  rcases literal with rfl | rfl | rfl
  · obtain ⟨noName, marks, body, all, rfl, goes⟩ := isNext.fits
    exact isNext_of_fits .rawString ⟨noName, marks, body, all, rfl, goesOn goes⟩ rfl
      (fun _ both => absurd both.1 (by decide)) (fun earlier => absurd earlier (by decide))
      (fun earlier => absurd earlier (by decide)) fun earlier => absurd earlier (by decide)
  · obtain ⟨body, rfl, goes⟩ := isNext.fits
    exact isNext_of_fits .string ⟨body, rfl, goesOn goes⟩ rfl
      (fun _ both => absurd both.1 (by decide)) (fun _ both => absurd both.1.1 (by decide))
      (fun earlier => absurd earlier (by decide)) fun earlier => absurd earlier (by decide)
  · obtain ⟨tail, rfl, -⟩ := characterLiteral?_of_isCharacterLiteral isNext.fits rest
    exact isNext_of_fits .character isNext.fits rfl
      (fun _ both => absurd both.1 (by decide)) (fun _ both => absurd both.1.1 (by decide))
      (fun _ => by decide) fun earlier => absurd earlier (by decide)

/-- A character is code exactly where nothing else begins with it. -/
theorem nextToken_eq_code_iff {before rest : Line} {first : Char} :
    nextToken before first rest = (⟨.code, [first]⟩, rest) ↔
      ¬ (first = '/' ∧ rest.head? = some '/') ∧
        ¬ ((first = 'r' ∧ mayOpenRaw before = true) ∧ (rawString? rest).isSome = true) ∧
          first ≠ '"' ∧ ¬ (first = '\'' ∧ (characterLiteral? rest).isSome = true) := by
  rw [nextToken]
  by_cases comment : first = '/' ∧ rest.head? = some '/'
  · simp [comment]
  by_cases raw : first = 'r' ∧ mayOpenRaw before = true
  · cases found : rawString? rest with
    | none => simp [raw]
    | some parts => simp [raw]
  by_cases quote : first = '"'
  · simp [quote]
  by_cases apostrophe : first = '\''
  · cases found : characterLiteral? rest with
    | none => simp [apostrophe]
    | some parts => simp [apostrophe]
  · simp [comment, raw, quote, apostrophe]

/-- A character of code before the end of a call is code whichever end it is. -/
theorem nextToken_of_code {before front rest later : Line} {first stop stop' : Char}
    (ends' : stop' ∈ callEnds) (noApostrophe : first ≠ '\'')
    (code : nextToken before first (front ++ stop :: rest) =
      (⟨.code, [first]⟩, front ++ stop :: rest)) :
    nextToken before first (front ++ stop' :: later) =
      (⟨.code, [first]⟩, front ++ stop' :: later) := by
  rw [nextToken_eq_code_iff] at code ⊢
  obtain ⟨noComment, noRaw, noQuote, -⟩ := code
  have plain : ∀ stop ∈ callEnds, stop ≠ '/' ∧ stop ≠ '"' ∧ stop ≠ '#' :=
    List.forall_iff_forall_mem.mp (by decide)
  refine ⟨fun both => noComment ⟨both.1, ?_⟩, fun both => noRaw ⟨both.1, ?_⟩, noQuote,
    fun both => noApostrophe both.1⟩
  · cases front with
    | nil => exact absurd (Option.some.inj both.2) (plain stop' ends').1
    | cons character front => exact both.2
  · rw [Walk.isSome_rawString?] at both ⊢
    -- Where only marks stand before the end of a call, no quote follows them.
    rw [List.dropWhile_append] at both ⊢
    cases left : front.dropWhile (· = '#') with
    | nil =>
      rw [left, List.isEmpty_nil, if_pos rfl, List.dropWhile_cons_of_neg (by
        simpa using (plain stop' ends').2.2)] at both
      exact absurd (Option.some.inj both.2) (plain stop' ends').2.1
    | cons character front' =>
      rw [left] at both
      exact both.2

/-- A literal that something follows is blanked whatever follows it. -/
theorem codeAfter_literal_append {before rest : Line} {first : Char}
    (literal : (nextToken before first rest).1.kind = .rawString ∨
      (nextToken before first rest).1.kind = .string ∨
        (nextToken before first rest).1.kind = .character)
    (follows : (nextToken before first rest).2 ≠ []) (later : Line) :
    codeAfter before ((nextToken before first rest).1.text ++ later) =
      List.replicate (nextToken before first rest).1.text.length ' ' ++
        codeAfter ((nextToken before first rest).1.text.reverse ++ before) later := by
  have isNext := isNext_nextToken before.reverse first rest
  obtain ⟨tail, text⟩ := nextToken_text before first rest
  rw [List.reverse_reverse] at isNext
  generalize nextToken before first rest = step at literal follows isNext text ⊢
  have whole : step.1.text ++ later = first :: (tail ++ later) := by
    rw [text]
    rfl
  have read := (isNext.of_literal follows literal).eq_nextToken whole
  rw [List.reverse_reverse] at read
  rw [whole, codeAfter_cons, read, Token.blanked_of_literal literal]

/-- A line can be cut at the end of a call: what stands before it is lexed alike, whichever end
follows and whatever comes then. -/
theorem exists_cut {before line : Line} {offset : Nat} {stop : Char} (ends : stop ∈ callEnds)
    (stands : (codeAfter before line)[offset]? = some stop)
    (noApostrophe : '\'' ∉ codeAfter before line) :
    ∃ front code rest, line = front ++ stop :: rest ∧ front.length = offset ∧
      code.length = offset ∧ ∀ stop' ∈ callEnds, ∀ later,
        codeAfter before (front ++ stop' :: later) =
          code ++ codeAfter (front.reverse ++ before) (stop' :: later) := by
  fun_induction tokensAfter before line generalizing offset with
  | case1 before =>
    rw [codeAfter_nil] at stands
    cases stands
  | case2 before first rest step =>
    rename_i inductionHypothesis
    rcases nextToken_cases before first rest with ⟨comment, -⟩ | code | literal
    · rw [codeAfter_of_comment comment] at stands
      cases stands
    · simp only [step, code] at inductionHypothesis
      rw [codeAfter_of_code code] at stands noApostrophe
      rw [List.mem_cons, not_or] at noApostrophe
      cases offset with
      | zero =>
        cases stands
        exact ⟨[], [], rest, rfl, rfl, rfl, fun _ _ _ => rfl⟩
      | succ offset =>
        obtain ⟨front, own, later, rfl, size, size', cuts⟩ :=
          inductionHypothesis stands noApostrophe.2
        refine ⟨first :: front, first :: own, later, rfl, by rw [List.length_cons, size],
          by rw [List.length_cons, size'], fun stop' ends' other => ?_⟩
        rw [List.cons_append,
          codeAfter_of_code (nextToken_of_code ends' (Ne.symm noApostrophe.1) code),
          List.reverse_cons, List.append_assoc]
        exact congrArg (first :: ·) (cuts stop' ends' other)
    · rw [codeAfter_of_literal literal] at stands noApostrophe
      rw [List.mem_append, not_or] at noApostrophe
      have behind : step.1.text.length ≤ offset := by
        refine Nat.le_of_not_lt fun inside => ?_
        rw [List.getElem?_append_left (by rw [List.length_replicate]; exact inside),
          List.getElem?_replicate, if_pos inside] at stands
        cases stands
        exact absurd ends (by decide)
      rw [List.getElem?_append_right (by rw [List.length_replicate]; exact behind),
        List.length_replicate] at stands
      obtain ⟨front, own, later, shape, size, size', cuts⟩ :=
        inductionHypothesis stands noApostrophe.2
      have follows : step.2 ≠ [] := by
        rw [shape]
        exact List.append_ne_nil_of_right_ne_nil _ (List.cons_ne_nil _ _)
      refine ⟨step.1.text ++ front, List.replicate step.1.text.length ' ' ++ own, later, ?_, ?_, ?_,
        fun stop' ends' other => ?_⟩
      · rw [List.append_assoc, ← shape]
        exact (nextToken_append before first rest).symm
      · rw [List.length_append, size, Nat.add_sub_cancel' behind]
      · rw [List.length_append, List.length_replicate, size', Nat.add_sub_cancel' behind]
      · rw [List.append_assoc, codeAfter_literal_append literal follows, cuts stop' ends' other,
          List.reverse_append, List.append_assoc, List.append_assoc]

/-- A line can be cut around a call in its code. What follows the call is lexed alike after the
question mark that stands for it. -/
theorem exists_cut_around {before line : Line} {start finish : Nat}
    (opens : (codeAfter before line)[start]? = some '.')
    (closes : (codeAfter before line)[finish - 1]? = some ')') (filled : start < finish)
    (noApostrophe : '\'' ∉ codeAfter before line) :
    ∃ front inner rest own ownInner after : Line,
      line = front ++ (inner ++ rest) ∧ front.length = start ∧ start + inner.length = finish ∧
      codeAfter before line = own ++ (ownInner ++ codeAfter after rest) ∧ own.length = start ∧
      start + ownInner.length = finish ∧
      ∀ later, codeAfter before (front ++ '?' :: later) = own ++ '?' :: codeAfter after later := by
  obtain ⟨front, own, tail, rfl, size, size', cuts⟩ := exists_cut (by decide) opens noApostrophe
  have splits (stop : Char) (ends : stop ∈ callEnds) (later : Line) :
      codeAfter before (front ++ stop :: later) =
        own ++ stop :: codeAfter (stop :: (front.reverse ++ before)) later := by
    rw [cuts stop ends, codeAfter_callEnd ends]
  rw [splits '.' (by decide)] at closes noApostrophe
  -- The end of the call is behind its start, as the characters there differ.
  obtain ⟨count, between⟩ : ∃ count, finish - 1 = own.length + (count + 1) := by
    have apart : finish - 1 ≠ own.length := by
      intro same
      rw [same, List.getElem?_append_right (Nat.le_refl _), Nat.sub_self] at closes
      exact absurd (Option.some.inj closes) (by decide)
    exact ⟨finish - 1 - own.length - 1, by omega⟩
  rw [between, List.getElem?_append_right (Nat.le_add_right _ _), Nat.add_sub_cancel_left,
    List.getElem?_cons_succ] at closes
  obtain ⟨inner, own', rest, rfl, sizeInner, sizeInner', cuts'⟩ :=
    exists_cut (by decide) closes fun member =>
      noApostrophe (List.mem_append_right _ (List.mem_cons_of_mem _ member))
  refine ⟨front, '.' :: inner ++ [')'], rest, own, '.' :: own' ++ [')'],
    ')' :: (inner.reverse ++ '.' :: (front.reverse ++ before)), by simp, size, ?_, ?_, size', ?_,
    fun later => ?_⟩
  · rw [List.length_append, List.length_cons, List.length_singleton]
    omega
  · rw [splits '.' (by decide), cuts' ')' (by decide), codeAfter_callEnd (by decide)]
    simp
  · rw [List.length_append, List.length_cons, List.length_singleton]
    omega
  · have alike : AreAlike ('?' :: (front.reverse ++ before))
        (')' :: (inner.reverse ++ '.' :: (front.reverse ++ before))) :=
      areAlike_callEnds (by decide) (by decide) _ _
    rw [splits '?' (by decide), codeAfter_of_alike alike]

end Rust

namespace Fix

open Rust

/-- The code of a line in which calls are replaced is its code with the same calls replaced. -/
theorem codeAfter_replaceSpans {before line : Line} {offset : Nat} {spans : List Span}
    (inOrder : InOrder offset spans)
    (ends : ∀ span ∈ spans, (codeAfter before line)[span.1 - offset]? = some '.' ∧
      (codeAfter before line)[span.2 - 1 - offset]? = some ')')
    (noApostrophe : '\'' ∉ codeAfter before line) :
    codeAfter before (replaceSpans offset spans line) =
      replaceSpans offset spans (codeAfter before line) := by
  induction spans generalizing offset before line with
  | nil => rfl
  | cons span others inductionHypothesis =>
    obtain ⟨after, filled, later⟩ := inOrder
    obtain ⟨opens, closes⟩ := ends span List.mem_cons_self
    rw [Nat.sub_right_comm] at closes
    obtain ⟨front, inner, rest, own, ownInner, seen, rfl, size, sizeInner, shape, size', sizeInner',
      stands⟩ := exists_cut_around opens closes (by omega) noApostrophe
    rw [shape] at noApostrophe ends ⊢
    rw [replaceSpans_append (by omega) (by omega), replaceSpans_append (by omega) (by omega),
      stands]
    have further : ∀ own' ∈ others, (codeAfter seen rest)[own'.1 - span.2]? = some '.' ∧
        (codeAfter seen rest)[own'.2 - 1 - span.2]? = some ')' := by
      intro own' member
      obtain ⟨opens', closes'⟩ := ends own' (List.mem_cons_of_mem _ member)
      have bounds := later.bounds member
      have skip {place : Nat} (behind : span.2 ≤ place) :
          (own ++ (ownInner ++ codeAfter seen rest))[place - offset]? =
            (codeAfter seen rest)[place - span.2]? := by
        rw [← List.append_assoc, List.getElem?_append_right (by rw [List.length_append]; omega),
          List.length_append]
        congr 1
        omega
      rw [skip (by omega)] at opens' closes'
      exact ⟨opens', closes'⟩
    have plain : '\'' ∉ codeAfter seen rest := fun member =>
      noApostrophe (List.mem_append_right _ (List.mem_append_right _ member))
    rw [inductionHypothesis later further plain]

end Fix

end CrateAudit
