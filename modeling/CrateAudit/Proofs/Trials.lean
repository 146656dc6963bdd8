/-
This file says when the matcher succeeds for the parts of which the built-in patterns are
made: texts, repeated characters, and parts that may be left out. It tries every text that
a repeated character can pass, so it fails only where what follows fails after each of
them; a reluctant repetition stops at the first place from which what follows succeeds.
-/

import CrateAudit.Proofs.Reaching

namespace CrateAudit

/-- Blanks, at least one. -/
structure Text.IsGap (text : Line) : Prop where
  filled : text ≠ []
  blank : ∀ character ∈ text, isBlank character = true

namespace Place

variable {place next : Place} {text : List Char}

theorem skip_nil (place : Place) : place.skip [] = place := by
  simp [skip]

theorem skip_append (place : Place) (first second : List Char) :
    place.skip (first ++ second) = (place.skip first).skip second := by
  simp [skip, Nat.add_assoc]

theorem after_skip (place : Place) (text : List Char) :
    (place.skip text).after = place.after.drop text.length := rfl

/-- What is left after a text that comes next. -/
theorem after_skip_of_eq {rest : List Char} (comes : place.after = text ++ rest) :
    (place.skip text).after = rest := by
  rw [after_skip, comes, List.drop_left]

theorem Passes.eq_skip (passes : place.Passes text next) : next = place.skip text := by
  obtain ⟨offset, before, after, groups⟩ := next
  obtain ⟨rfl, rfl, left, rfl⟩ := passes
  rw [skip, left, List.drop_left]

theorem passes_skip (comes : text <+: place.after) : place.Passes text (place.skip text) where
  offset := rfl
  before := rfl
  after := by
    obtain ⟨rest, left⟩ := comes
    rw [after_skip, ← left, List.drop_left]
  groups := rfl

/-- The texts that characters with a property make up and that come next. -/
structure CanPass (place : Place) (admits : Char → Bool) (text : List Char) : Prop where
  admitted : ∀ character ∈ text, admits character = true
  comes : text <+: place.after

theorem CanPass.nil (place : Place) (admits : Char → Bool) : place.CanPass admits [] :=
  ⟨fun _ member => absurd member List.not_mem_nil, List.nil_prefix⟩

/-- A text can be passed exactly if its first character can be and then the rest of it. -/
theorem canPass_cons {admits : Char → Bool} {character : Char} :
    place.CanPass admits (character :: text) ↔
      admits character = true ∧ [character] <+: place.after ∧
        (place.skip [character]).CanPass admits text := by
  constructor
  · rintro ⟨admitted, rest, comes⟩
    have left : place.after = [character] ++ (text ++ rest) := comes.symm
    refine ⟨admitted _ List.mem_cons_self, ⟨_, left.symm⟩,
      fun other member => admitted other (List.mem_cons_of_mem _ member), ?_⟩
    rw [after_skip_of_eq left]
    exact List.prefix_append _ _
  · rintro ⟨here, ⟨rest, comes⟩, admitted, later⟩
    refine ⟨List.forall_mem_cons.mpr ⟨here, admitted⟩, ?_⟩
    rw [after_skip_of_eq comes.symm] at later
    rw [← comes]
    exact List.cons_prefix_cons.mpr ⟨rfl, later⟩

end Place

namespace Regex

variable {place : Place} {follow : Continuation}

/-! ### Tests of one character -/

theorem admits_noneOf {characters : List Char} {character : Char} :
    CharacterTest.admits (.oneOf (characters.map fun own => .single own.toNat) true) false
      character = true ↔ character ∉ characters := by
  have apart : (∀ other ∈ characters, ¬ character = other) ↔ character ∉ characters :=
    ⟨fun apart member => apart character member rfl,
      fun absent other member same => absent (same ▸ member)⟩
  simpa [CharacterTest.admits, SetItem.covers, Char.toNat_inj] using apart

theorem admits_wordCharacter {character : Char} :
    CharacterTest.admits (.oneOf [.named .word false] false) false character = true ↔
      Text.isWordCharacter character = true := by
  simp [CharacterTest.admits, SetItem.covers, CharacterClass.holds, Char.ofNat_toNat]

/-! ### Patterns in order -/

theorem run_inOrder_cons (regex : Regex) (rest : List Regex) (place : Place)
    (follow : Continuation) :
    (inOrder (regex :: rest)).run place follow =
      regex.run place fun next => (inOrder rest).run next follow := by
  cases rest <;> rfl

theorem run_inOrder_append (first second : List Regex) (place : Place) (follow : Continuation) :
    (inOrder (first ++ second)).run place follow =
      (inOrder first).run place fun next => (inOrder second).run next follow := by
  induction first generalizing place with
  | nil => rfl
  | cons regex rest inductionHypothesis =>
    rw [List.cons_append, run_inOrder_cons, run_inOrder_cons]
    simp only [inductionHypothesis]

/-- A text that has to come next is passed. -/
theorem run_parts_append (text : String) (rest : List Regex) (place : Place)
    (follow : Continuation) :
    (inOrder (parts text ++ rest)).run place follow =
      if text.toList.isPrefixOf place.after then
        (inOrder rest).run (place.skip text.toList) follow
      else none := by
  rw [run_inOrder_append, parts, run_map_exactly]

/-- At the start of a line nothing is to be checked about it. -/
theorem startsLine_start_cons (rest : List Regex) (line : Line) :
    (inOrder (.anchor .start :: rest)).startsLine line = (inOrder rest).startsLine line := by
  have atStart : Anchor.holds (Place.start line) .start = true := rfl
  rw [startsLine, startsLine, matchStart?, matchStart?, matchAt?, matchAt?, run_inOrder_cons, run,
    if_pos atStart]

/-! ### Parts that may be left out -/

theorem isSome_orTry {first : Option Place} {second : Unit → Option Place} :
    (orTry first second).isSome = true ↔ first.isSome = true ∨ (second ()).isSome = true := by
  cases first <;> simp [orTry]

/-- A part that may be left out is tried once, and then left out. -/
theorem run_perhaps (regex : Regex) (place : Place) (follow : Continuation) :
    (perhaps regex).run place follow = orTry (regex.run place follow) fun _ => follow place := by
  have once (place : Place) (last : Option Nat) (rounds : Nat) :
      repeatFrom (fun next rest => regex.run next rest) 0 (some 1) true follow (rounds + 1) 1 last
        place = follow place := by
    simp [repeatFrom, orTry]
  rw [perhaps, run, Nat.zero_add, repeatFrom]
  simp only [Nat.not_lt_zero, if_false, Option.all_some, Nat.lt_add_one, decide_true,
    Bool.true_and, if_true]
  rfl

/-! ### Repeated characters -/

section

variable {test : CharacterTest} {least : Nat} {most : Option Nat} {greedy : Bool}

/-- What the matcher makes of one character. -/
theorem run_one_eq_some {final : Place} :
    (Regex.one test false).run place follow = some final ↔
      ∃ character, test.admits false character = true ∧ [character] <+: place.after ∧
        follow (place.skip [character]) = some final := by
  obtain ⟨offset, before, after, groups⟩ := place
  cases after with
  | nil => simp [run]
  | cons character rest =>
    simp only [run]
    split
    · rename_i admitted
      constructor
      · exact fun found => ⟨character, admitted, List.prefix_append [character] rest, found⟩
      · rintro ⟨other, _, comes, found⟩
        cases (List.cons_prefix_cons.mp comes).1
        exact found
    · rename_i refused
      constructor
      · intro found
        cases found
      · rintro ⟨other, admitted, comes, _⟩
        cases (List.cons_prefix_cons.mp comes).1
        exact absurd admitted refused

theorem isSome_run_one :
    ((Regex.one test false).run place follow).isSome = true ↔
      ∃ character, test.admits false character = true ∧ [character] <+: place.after ∧
        (follow (place.skip [character])).isSome = true := by
  simp only [Option.isSome_iff_exists, run_one_eq_some]
  constructor
  · rintro ⟨final, character, admitted, comes, found⟩
    exact ⟨character, admitted, comes, final, found⟩
  · rintro ⟨character, admitted, comes, final, found⟩
    exact ⟨final, character, admitted, comes, found⟩

/-- Once the required rounds are done, one more is tried unless it would start where the last one
did. -/
theorem repeatFrom_of_satisfied {body : Place → Continuation → Option Place} {done : Nat}
    (satisfied : ¬ done < least) (rounds : Nat) (last : Option Nat) (place : Place) :
    repeatFrom body least none greedy follow (rounds + 1) done last place =
      let again := fun _ =>
        if last != some place.offset then
          body place (repeatFrom body least none greedy follow rounds (done + 1)
            (some place.offset))
        else none
      if greedy then orTry (again ()) (fun _ => follow place) else orTry (follow place) again := by
  rw [repeatFrom, if_neg satisfied]
  rfl

theorem isSome_repeatFrom_of_satisfied {body : Place → Continuation → Option Place} {done : Nat}
    (satisfied : ¬ done < least) (rounds : Nat) {last : Option Nat}
    (fresh : last ≠ some place.offset) :
    (repeatFrom body least none greedy follow (rounds + 1) done last place).isSome = true ↔
      (body place (repeatFrom body least none greedy follow rounds (done + 1)
        (some place.offset))).isSome = true ∨ (follow place).isSome = true := by
  rw [repeatFrom_of_satisfied satisfied]
  simp only [bne_iff_ne.mpr fresh, if_true]
  cases greedy with
  | false => rw [if_neg Bool.false_ne_true, isSome_orTry, or_comm]
  | true => rw [if_pos rfl, isSome_orTry]

/-- Where some text can be passed and what follows succeeds after it, a repetition succeeds. No
round stops it, since each of them starts later than the one before. -/
theorem isSome_repeatFrom {text : List Char} {rounds done : Nat} {last : Option Nat}
    (passes : place.CanPass (test.admits false) text) (enough : least ≤ done + text.length)
    (follows : (follow (place.skip text)).isSome = true) (many : text.length < rounds)
    (later : ∀ offset, last = some offset → offset < place.offset) :
    (repeatFrom (fun next rest => (Regex.one test false).run next rest) least none greedy follow
      rounds done last place).isSome = true := by
  obtain ⟨rounds, rfl⟩ := Nat.exists_eq_succ_of_ne_zero (Nat.ne_of_gt (Nat.zero_lt_of_lt many))
  induction text generalizing place rounds done last with
  | nil =>
    have fresh : last ≠ some place.offset := fun same => Nat.lt_irrefl _ (later _ same)
    rw [Place.skip_nil] at follows
    have satisfied : ¬ done < least := Nat.not_lt.mpr enough
    exact (isSome_repeatFrom_of_satisfied satisfied rounds fresh).mpr (Or.inr follows)
  | cons character text inductionHypothesis =>
    obtain ⟨admitted, comes, passes⟩ := Place.canPass_cons.mp passes
    rw [List.length_cons] at enough many
    obtain ⟨rounds, rfl⟩ := Nat.exists_eq_succ_of_ne_zero (show rounds ≠ 0 by omega)
    have again {last : Option Nat}
        (later : ∀ offset, last = some offset → offset < (place.skip [character]).offset) :
        ((Regex.one test false).run place (repeatFrom
          (fun next rest => (Regex.one test false).run next rest) least none greedy follow
            (rounds + 1) (done + 1) last)).isSome = true := by
      have followed : (follow ((place.skip [character]).skip text)).isSome = true := by
        rwa [← Place.skip_append]
      refine isSome_run_one.mpr ⟨character, admitted, comes, ?_⟩
      exact inductionHypothesis passes (by omega) followed later rounds (by omega)
    have fresh : last ≠ some place.offset := fun same => Nat.lt_irrefl _ (later _ same)
    by_cases required : done < least
    · rw [repeatFrom, if_pos required]
      exact again fun offset same => Nat.lt_succ_of_lt (later offset same)
    · refine (isSome_repeatFrom_of_satisfied required _ fresh).mpr (Or.inl (again ?_))
      intro offset same
      cases same
      exact Nat.lt_succ_self _

/-- What a repetition finds, it finds after a text that can be passed. -/
theorem exists_canPass_of_run {final : Place}
    (found : (Regex.repetition (.one test false) least most greedy).run place follow =
      some final) :
    ∃ text, place.CanPass (test.admits false) text ∧ least ≤ text.length ∧
      follow (place.skip text) = some final := by
  obtain ⟨next, ⟨count, enough, rounds⟩, followed⟩ := exists_reaches_of_run found
  obtain ⟨text, length, admitted, passes⟩ := passes_of_rounds rounds
  refine ⟨text, ⟨admitted, _, passes.after.symm⟩, by omega, ?_⟩
  rw [← passes.eq_skip]
  exact followed

/-- A repetition succeeds exactly where what follows succeeds after a text that can be passed. -/
theorem isSome_run_repetition :
    ((Regex.repetition (.one test false) least none greedy).run place follow).isSome = true ↔
      ∃ text, place.CanPass (test.admits false) text ∧ least ≤ text.length ∧
        (follow (place.skip text)).isSome = true := by
  constructor
  · intro found
    obtain ⟨final, found⟩ := Option.isSome_iff_exists.mp found
    obtain ⟨text, passes, enough, followed⟩ := exists_canPass_of_run found
    exact ⟨text, passes, enough, Option.isSome_iff_exists.mpr ⟨final, followed⟩⟩
  · rintro ⟨text, passes, enough, followed⟩
    have short := passes.comes.length_le
    exact isSome_repeatFrom passes (by omega) followed (by omega) (by simp)

/-- A reluctant repetition stops at the first place from which what follows succeeds. -/
theorem exists_first_of_run_few {final : Place}
    (found : (few (.one test false)).run place follow = some final) :
    ∃ text, place.CanPass (test.admits false) text ∧ follow (place.skip text) = some final ∧
      ∀ shorter, shorter <+: text → shorter ≠ text → follow (place.skip shorter) = none := by
  suffices general : ∀ (rounds done : Nat) (last : Option Nat) (place : Place),
      repeatFrom (fun next rest => (Regex.one test false).run next rest) 0 none false follow
        rounds done last place = some final →
      ∃ text, place.CanPass (test.admits false) text ∧ follow (place.skip text) = some final ∧
        ∀ shorter, shorter <+: text → shorter ≠ text → follow (place.skip shorter) = none from
    general _ _ _ _ found
  intro rounds
  induction rounds with
  | zero =>
    intro _ _ _ found
    cases found
  | succ rounds inductionHypothesis =>
    intro done last place found
    rw [repeatFrom_of_satisfied (Nat.not_lt_zero done)] at found
    simp only [Bool.false_eq_true, if_false] at found
    rcases orTry_eq_some.mp found with followed | ⟨failed, again⟩
    · refine ⟨[], .nil place _, by rwa [Place.skip_nil], fun shorter short other => ?_⟩
      exact absurd (List.prefix_nil.mp short) other
    · split at again
      · obtain ⟨character, admitted, comes, rest⟩ := run_one_eq_some.mp again
        obtain ⟨text, passes, followed, first⟩ := inductionHypothesis _ _ _ rest
        refine ⟨character :: text, Place.canPass_cons.mpr ⟨admitted, comes, passes⟩, ?_, ?_⟩
        · rw [← List.singleton_append, Place.skip_append]
          exact followed
        · intro shorter short other
          cases shorter with
          | nil => rwa [Place.skip_nil]
          | cons own shorter =>
            obtain ⟨rfl, shorter_text⟩ := List.cons_prefix_cons.mp short
            rw [← List.singleton_append, Place.skip_append]
            exact first shorter shorter_text fun same => other (by rw [same])
      · cases again

end

/-! ### The texts that a pattern passes -/

/-- The texts that a pattern passes: whatever follows it, provided that the text that is left tells
whether it succeeds, both succeed exactly if what follows does after one of these texts. -/
def PassesExactly (regex : Regex) (texts : Line → Prop) : Prop :=
  ∀ (follow : Continuation) (accepts : Line → Prop),
    (∀ place, (follow place).isSome = true ↔ accepts place.after) → ∀ place,
      (regex.run place follow).isSome = true ↔
        ∃ text rest, texts text ∧ place.after = text ++ rest ∧ accepts rest

namespace PassesExactly

variable {regex : Regex} {texts : Line → Prop}

/-- The pattern is found at the start of the lines that begin with one of its texts. -/
theorem startsLine_iff (passes : regex.PassesExactly texts) {line : Line} :
    regex.startsLine line = true ↔ ∃ text, texts text ∧ text <+: line := by
  rw [startsLine, matchStart?, matchAt?, Option.isSome_map,
    passes _ (fun _ => True) fun place => by simp]
  constructor
  · rintro ⟨text, rest, own, left, _⟩
    exact ⟨text, own, rest, left.symm⟩
  · rintro ⟨text, own, rest, left⟩
    exact ⟨text, rest, own, left.symm, trivial⟩

theorem parts (text : String) : (inOrder (parts text)).PassesExactly (· = text.toList) := by
  intro follow accepts tells place
  rw [Regex.parts, run_map_exactly]
  split
  · rename_i comes
    obtain ⟨rest, left⟩ := List.isPrefixOf_iff_prefix.mp comes
    rw [tells, Place.after_skip_of_eq left.symm]
    constructor
    · exact fun accepted => ⟨_, rest, rfl, left.symm, accepted⟩
    · rintro ⟨_, other, rfl, left', accepted⟩
      rwa [List.append_cancel_left (left.trans left')]
  · rename_i absent
    refine iff_of_false Bool.false_ne_true ?_
    rintro ⟨_, rest, rfl, left, _⟩
    exact absent (List.isPrefixOf_iff_prefix.mpr ⟨rest, left.symm⟩)

theorem exactly (character : Char) : (exactly character).PassesExactly (· = [character]) := by
  intro follow accepts tells place
  rw [Regex.exactly, isSome_run_one]
  constructor
  · rintro ⟨other, admitted, ⟨rest, left⟩, followed⟩
    rw [tells, Place.after_skip_of_eq left.symm] at followed
    exact ⟨[other], rest, by rw [admits_exactly.mp admitted], left.symm, followed⟩
  · rintro ⟨_, rest, rfl, left, accepted⟩
    refine ⟨character, admits_exactly.mpr rfl, ⟨rest, left.symm⟩, ?_⟩
    rwa [tells, Place.after_skip_of_eq left]

theorem repetition (test : CharacterTest) (least : Nat) (greedy : Bool) :
    (Regex.repetition (.one test false) least none greedy).PassesExactly fun text =>
      (∀ character ∈ text, test.admits false character = true) ∧ least ≤ text.length := by
  intro follow accepts tells place
  rw [isSome_run_repetition]
  constructor
  · rintro ⟨text, ⟨admitted, rest, left⟩, enough, followed⟩
    rw [tells, Place.after_skip_of_eq left.symm] at followed
    exact ⟨text, rest, ⟨admitted, enough⟩, left.symm, followed⟩
  · rintro ⟨text, rest, ⟨admitted, enough⟩, left, accepted⟩
    refine ⟨text, ⟨admitted, rest, left.symm⟩, enough, ?_⟩
    rwa [tells, Place.after_skip_of_eq left]

theorem congr {texts' : Line → Prop} (passes : regex.PassesExactly texts)
    (same : ∀ text, texts text ↔ texts' text) : regex.PassesExactly texts' := by
  rwa [← funext fun text => propext (same text)]

theorem blanks : (many blank).PassesExactly fun text =>
    ∀ character ∈ text, Text.isBlank character = true := by
  refine (repetition (.oneOf [.named .blank false] false) 0 true).congr fun text => ?_
  simp only [admits_blank, Nat.zero_le, and_true]

/-- Blanks, at least one. -/
theorem gap : (atLeastOne blank).PassesExactly Text.IsGap := by
  refine (repetition (.oneOf [.named .blank false] false) 1 true).congr fun text => ?_
  simp only [admits_blank]
  exact ⟨fun both => ⟨List.ne_nil_of_length_pos both.2, both.1⟩,
    fun isGap => ⟨isGap.blank, List.length_pos_iff.mpr isGap.filled⟩⟩

theorem group (passes : regex.PassesExactly texts) (index : Nat) :
    (Regex.group index regex).PassesExactly texts := by
  intro follow accepts tells place
  exact passes _ accepts (fun next => tells (next.capture index place.offset)) place

theorem perhaps (passes : regex.PassesExactly texts) :
    (perhaps regex).PassesExactly fun text => text = [] ∨ texts text := by
  intro follow accepts tells place
  rw [run_perhaps, isSome_orTry, passes follow accepts tells, tells]
  constructor
  · rintro (⟨text, rest, own, left, accepted⟩ | accepted)
    · exact ⟨text, rest, Or.inr own, left, accepted⟩
    · exact ⟨[], place.after, Or.inl rfl, rfl, accepted⟩
  · rintro ⟨text, rest, rfl | own, left, accepted⟩
    · exact Or.inr (left ▸ accepted)
    · exact Or.inl ⟨text, rest, own, left, accepted⟩

theorem alone (passes : regex.PassesExactly texts) : (inOrder [regex]).PassesExactly texts :=
  passes

theorem append {first second : List Regex} {texts' : Line → Prop}
    (passes : (inOrder first).PassesExactly texts)
    (passes' : (inOrder second).PassesExactly texts') :
    (inOrder (first ++ second)).PassesExactly fun text =>
      ∃ start rest, texts start ∧ texts' rest ∧ text = start ++ rest := by
  intro follow accepts tells place
  rw [run_inOrder_append, passes _
    (fun line => ∃ text rest, texts' text ∧ line = text ++ rest ∧ accepts rest)
    (passes' follow accepts tells)]
  constructor
  · rintro ⟨start, _, own, left, rest, later, own', rfl, accepted⟩
    exact ⟨start ++ rest, later, ⟨start, rest, own, own', rfl⟩, by rw [left, List.append_assoc],
      accepted⟩
  · rintro ⟨_, later, ⟨start, rest, own, own', rfl⟩, left, accepted⟩
    exact ⟨start, rest ++ later, own, by rw [left, List.append_assoc], rest, later, own', rfl,
      accepted⟩

theorem cons {rest : List Regex} {texts' : Line → Prop} (passes : regex.PassesExactly texts)
    (passes' : (inOrder rest).PassesExactly texts') :
    (inOrder (regex :: rest)).PassesExactly fun text =>
      ∃ start rest, texts start ∧ texts' rest ∧ text = start ++ rest :=
  passes.alone.append passes'

end PassesExactly

end Regex

end CrateAudit
