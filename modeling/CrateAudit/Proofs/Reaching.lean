/-
This file says where a search pattern can lead from a place. The matcher tries ways in
an order of preference; what it finds is always one of the ways that the pattern has.
So a fact about all ways of a pattern, such as the text that it has to pass, holds of
whatever the matcher finds.
-/

import CrateAudit.Proofs.Search
import CrateAudit.Regex.Matching
import CrateAudit.Rule

namespace CrateAudit

/-! ### Passing a text -/

/-- The second place follows the first one after a text, with the same groups. -/
structure Place.Passes (place : Place) (text : List Char) (next : Place) : Prop where
  offset : next.offset = place.offset + text.length
  before : next.before = text.reverse ++ place.before
  after : place.after = text ++ next.after
  groups : next.groups = place.groups

namespace Place

theorem Passes.nil (place : Place) : place.Passes [] place :=
  ⟨rfl, rfl, rfl, rfl⟩

theorem Passes.append {place middle next : Place} {first second : List Char}
    (passes : place.Passes first middle) (passes' : middle.Passes second next) :
    place.Passes (first ++ second) next where
  offset := by rw [passes'.offset, passes.offset, List.length_append]; omega
  before := by rw [passes'.before, passes.before, List.reverse_append, List.append_assoc]
  after := by rw [passes.after, passes'.after, List.append_assoc]
  groups := by rw [passes'.groups, passes.groups]

/-- The place after a text that comes next. -/
def skip (place : Place) (text : List Char) : Place :=
  ⟨place.offset + text.length, text.reverse ++ place.before, place.after.drop text.length,
    place.groups⟩

/-- A text that is consumed up to case passes a text of its own. -/
theorem exists_passes_of_consume? {ignoreCase : Bool} {text : List Char} {place next : Place}
    (consumed : place.consume? ignoreCase text = some next) : ∃ own, place.Passes own next := by
  induction text generalizing place with
  | nil =>
    cases consumed
    exact ⟨[], .nil _⟩
  | cons character rest inductionHypothesis =>
    obtain ⟨offset, before, after, groups⟩ := place
    cases after with
    | nil => cases consumed
    | cons other later =>
      simp only [consume?] at consumed
      generalize (if ignoreCase = true then _ else _) = equal at consumed
      cases equal with
      | false => cases consumed
      | true =>
        obtain ⟨own, passes⟩ := inductionHypothesis consumed
        have here : Passes ⟨offset, before, other :: later, groups⟩ [other]
            ⟨offset + 1, other :: before, later, groups⟩ := ⟨rfl, rfl, rfl, rfl⟩
        exact ⟨_, here.append passes⟩

/-- The whole line around a place. -/
def line (place : Place) : List Char :=
  place.before.reverse ++ place.after

theorem Passes.line {place next : Place} {text : List Char} (passes : place.Passes text next) :
    next.line = place.line := by
  rw [Place.line, Place.line, passes.before, passes.after, List.reverse_append,
    List.reverse_reverse, List.append_assoc]

end Place

namespace Regex

/-! ### The ways of a pattern -/

/-- A number of rounds, one after another. -/
def Rounds (step : Place → Place → Prop) : Nat → Place → Place → Prop
  | 0, place, next => next = place
  | count + 1, place, next => ∃ middle, step place middle ∧ Rounds step count middle next

/-- Whether a pattern has a way from one place to another. -/
def Reaches : Regex → Place → Place → Prop
  | .empty, place, next => next = place
  | .never, _, _ => False
  | .one test ignoreCase, place, next =>
    ∃ character, test.admits ignoreCase character = true ∧ place.Passes [character] next
  | .anchor kind, place, next => kind.holds place = true ∧ next = place
  | .sequence first second, place, next =>
    ∃ middle, Reaches first place middle ∧ Reaches second middle next
  | .choice first second, place, next => Reaches first place next ∨ Reaches second place next
  | .group index body, place, next =>
    ∃ inner, Reaches body place inner ∧ next = inner.capture index place.offset
  | .reference index ignoreCase, place, next =>
    ∃ text, place.captured? index = some text ∧ place.consume? ignoreCase text = some next
  | .repetition body least _ _, place, next =>
    ∃ count, least ≤ count ∧ Rounds (Reaches body) count place next
  | .atomic body, place, next => Reaches body place next
  | .ahead body negated, place, next =>
    if negated then next = place
    else ∃ inner, Reaches body place inner ∧ next = { place with groups := inner.groups }
  | .behind width body negated, place, next =>
    if negated then next = place
    else ∃ earlier inner, place.back? width = some earlier ∧ Reaches body earlier inner ∧
      next = { place with groups := inner.groups }

theorem orTry_eq_some {first : Option Place} {second : Unit → Option Place} {final : Place} :
    orTry first second = some final ↔
      first = some final ∨ (first = none ∧ second () = some final) := by
  cases first <;> simp [orTry]

/-- Rounds that the matcher makes are rounds of the pattern. -/
theorem exists_rounds_of_repeatFrom {body : Place → Continuation → Option Place}
    {step : Place → Place → Prop}
    (sound : ∀ (place final : Place) (follow : Continuation),
      body place follow = some final → ∃ next, step place next ∧ follow next = some final)
    {least : Nat} {most : Option Nat} {greedy : Bool} {follow : Continuation}
    {rounds done : Nat} {last : Option Nat} {place final : Place}
    (found : repeatFrom body least most greedy follow rounds done last place = some final) :
    ∃ count next, least ≤ done + count ∧ Rounds step count place next ∧
      follow next = some final := by
  induction rounds generalizing done last place with
  | zero => cases found
  | succ rounds inductionHypothesis =>
    have more {later : Option Nat}
        (again : body place (repeatFrom body least most greedy follow rounds (done + 1) later) =
          some final) :
        ∃ count next, least ≤ done + count ∧ Rounds step count place next ∧
          follow next = some final := by
      obtain ⟨middle, here, rest⟩ := sound _ _ _ again
      obtain ⟨count, next, enough, later, followed⟩ := inductionHypothesis rest
      exact ⟨count + 1, next, by omega, ⟨middle, here, later⟩, followed⟩
    have stop (enough : ¬ done < least) (followed : follow place = some final) :
        ∃ count next, least ≤ done + count ∧ Rounds step count place next ∧
          follow next = some final :=
      ⟨0, place, by omega, rfl, followed⟩
    unfold repeatFrom at found
    split at found
    · exact more found
    · rename_i enough
      have optional (tried : (if most.all (done < ·) && last != some place.offset then
          body place (repeatFrom body least most greedy follow rounds (done + 1)
            (some place.offset)) else none) = some final) :
          ∃ count next, least ≤ done + count ∧ Rounds step count place next ∧
            follow next = some final := by
        split at tried
        · exact more tried
        · cases tried
      simp only at found
      split at found
      · rcases orTry_eq_some.mp found with again | ⟨_, followed⟩
        · exact optional again
        · exact stop enough followed
      · rcases orTry_eq_some.mp found with followed | ⟨_, again⟩
        · exact stop enough followed
        · exact optional again

/-- A condition on the text around a place either is negated and leaves the place as it is, or
adds the groups of what it found there. -/
theorem follow_of_condition {matched : Option Place} {negated : Bool} {place final : Place}
    {follow : Continuation}
    (found : (match matched with
      | some inner => if negated then none else follow { place with groups := inner.groups }
      | none => if negated then follow place else none) = some final) :
    (negated = true ∧ follow place = some final) ∨
      (negated = false ∧ ∃ inner, matched = some inner ∧
        follow { place with groups := inner.groups } = some final) := by
  cases matched with
  | none =>
    cases negated with
    | true => exact Or.inl ⟨rfl, found⟩
    | false => cases found
  | some inner =>
    cases negated with
    | true => cases found
    | false => exact Or.inr ⟨rfl, inner, rfl, found⟩

/-- What the matcher finds, it finds by a way of the pattern. -/
theorem exists_reaches_of_run {regex : Regex} {place final : Place} {follow : Continuation}
    (found : regex.run place follow = some final) :
    ∃ next, Reaches regex place next ∧ follow next = some final := by
  induction regex generalizing place final follow with
  | empty => exact ⟨place, rfl, found⟩
  | never => cases found
  | one test ignoreCase =>
    obtain ⟨offset, before, after, groups⟩ := place
    cases after with
    | nil => cases found
    | cons character rest =>
      simp only [run] at found
      split at found
      · rename_i admitted
        exact ⟨⟨offset + 1, character :: before, rest, groups⟩,
          ⟨character, admitted, ⟨rfl, rfl, rfl, rfl⟩⟩, found⟩
      · cases found
  | anchor kind =>
    simp only [run] at found
    split at found
    · rename_i holds
      exact ⟨place, ⟨holds, rfl⟩, found⟩
    · cases found
  | sequence first second first_sound second_sound =>
    obtain ⟨middle, here, rest⟩ := first_sound found
    obtain ⟨next, there, followed⟩ := second_sound rest
    exact ⟨next, ⟨middle, here, there⟩, followed⟩
  | choice first second first_sound second_sound =>
    rcases orTry_eq_some.mp found with taken | ⟨_, taken⟩
    · obtain ⟨next, way, followed⟩ := first_sound taken
      exact ⟨next, Or.inl way, followed⟩
    · obtain ⟨next, way, followed⟩ := second_sound taken
      exact ⟨next, Or.inr way, followed⟩
  | group index body sound =>
    obtain ⟨inner, way, followed⟩ := sound found
    exact ⟨_, ⟨inner, way, rfl⟩, followed⟩
  | reference index ignoreCase =>
    simp only [run] at found
    split at found
    · cases found
    · rename_i text captured
      obtain ⟨next, consumed, followed⟩ := Option.bind_eq_some_iff.mp found
      exact ⟨next, ⟨text, captured, consumed⟩, followed⟩
  | repetition body least most greedy sound =>
    obtain ⟨count, next, enough, way, followed⟩ :=
      exists_rounds_of_repeatFrom (fun _ _ _ run => sound run) found
    exact ⟨next, ⟨count, by omega, way⟩, followed⟩
  | atomic body sound =>
    obtain ⟨next, inner, followed⟩ := Option.bind_eq_some_iff.mp found
    obtain ⟨reached, way, same⟩ := sound inner
    cases same
    exact ⟨next, way, followed⟩
  | ahead body negated sound =>
    rcases follow_of_condition found with ⟨rfl, followed⟩ | ⟨rfl, inner, matched, followed⟩
    · exact ⟨place, rfl, followed⟩
    · obtain ⟨reached, way, same⟩ := sound matched
      cases same
      exact ⟨_, ⟨inner, way, rfl⟩, followed⟩
  | behind width body negated sound =>
    rcases follow_of_condition found with ⟨rfl, followed⟩ | ⟨rfl, inner, matched, followed⟩
    · exact ⟨place, rfl, followed⟩
    · obtain ⟨earlier, back, matched⟩ := Option.bind_eq_some_iff.mp matched
      obtain ⟨reached, way, same⟩ := sound matched
      cases same
      exact ⟨_, ⟨earlier, inner, back, way, rfl⟩, followed⟩

/-- A match that starts at a place ends where a way of the pattern leads from there. -/
theorem reaches_of_matchAt? {regex : Regex} {advancing : Bool} {place : Place} {found : Match}
    (matched : regex.matchAt? advancing place = some found) :
    found.start = place.offset ∧ Reaches regex place found.final := by
  obtain ⟨final, run, rfl⟩ := Option.map_eq_some_iff.mp matched
  obtain ⟨next, way, followed⟩ := exists_reaches_of_run run
  split at followed
  · cases followed
  · cases followed
    exact ⟨rfl, way⟩

theorem reaches_of_matchStart? {regex : Regex} {line : Line} {found : Match}
    (matched : regex.matchStart? line = some found) :
    Reaches regex (Place.start line) found.final :=
  (reaches_of_matchAt? matched).2

/-- What is found from a place on is a match that starts there or at a later place of the line. -/
theorem exists_matchAt?_of_searchFrom {regex : Regex} {advancing : Bool} {offset : Nat}
    {before after : List Char} {found : Match}
    (matched : regex.searchFrom advancing offset before after = some found) :
    ∃ place advancing', regex.matchAt? advancing' place = some found ∧
      ∃ text, Place.Passes ⟨offset, before, after, []⟩ text place := by
  induction after generalizing advancing offset before with
  | nil => exact ⟨_, _, matched, [], .nil _⟩
  | cons character rest inductionHypothesis =>
    rw [searchFrom] at matched
    split at matched
    · rename_i here
      cases matched
      exact ⟨_, _, here, [], .nil _⟩
    · obtain ⟨place, advancing', there, text, passes⟩ := inductionHypothesis matched
      have step : Place.Passes ⟨offset, before, character :: rest, []⟩ [character]
          ⟨offset + 1, character :: before, rest, []⟩ := ⟨rfl, rfl, rfl, rfl⟩
      exact ⟨place, advancing', there, _, step.append passes⟩

/-! ### The ways of patterns put together from characters -/

theorem admits_exactly {character other : Char} :
    CharacterTest.admits (.single character.toNat) false other = true ↔ other = character := by
  simp only [CharacterTest.admits, Bool.false_eq_true, if_false, beq_iff_eq]
  exact Char.toNat_inj

theorem reaches_exactly {character : Char} {place next : Place} :
    Reaches (exactly character) place next ↔ place.Passes [character] next := by
  constructor
  · rintro ⟨other, admitted, passes⟩
    rw [← admits_exactly.mp admitted]
    exact passes
  · exact fun passes => ⟨character, admits_exactly.mpr rfl, passes⟩

theorem admits_blank {character : Char} :
    CharacterTest.admits (.oneOf [.named .blank false] false) false character = true ↔
      Text.isBlank character = true := by
  simp [CharacterTest.admits, SetItem.covers, CharacterClass.holds, Char.ofNat_toNat]

/-- Rounds of a pattern for one character pass a text of characters that it admits. -/
theorem passes_of_rounds {test : CharacterTest} {count : Nat} {place next : Place}
    (way : Rounds (Reaches (.one test false)) count place next) :
    ∃ text, text.length = count ∧ (∀ character ∈ text, test.admits false character = true) ∧
      place.Passes text next := by
  induction count generalizing place with
  | zero =>
    cases way
    exact ⟨[], rfl, by simp, .nil _⟩
  | succ count inductionHypothesis =>
    obtain ⟨middle, ⟨character, admitted, passes⟩, rest⟩ := way
    obtain ⟨text, length, all, passes'⟩ := inductionHypothesis rest
    refine ⟨character :: text, by rw [List.length_cons, length], ?_, passes.append passes'⟩
    intro other member
    rcases List.mem_cons.mp member with rfl | later
    · exact admitted
    · exact all other later

/-- The blanks that a pattern for any number of them passes. -/
theorem passes_of_blanks {least : Nat} {most : Option Nat} {greedy : Bool} {place next : Place}
    (way : Reaches (.repetition blank least most greedy) place next) :
    ∃ text, (∀ character ∈ text, Text.isBlank character = true) ∧ least ≤ text.length ∧
      place.Passes text next := by
  obtain ⟨count, enough, rounds⟩ := way
  obtain ⟨text, length, all, passes⟩ := passes_of_rounds rounds
  exact ⟨text, fun character member => admits_blank.mp (all character member),
    by omega, passes⟩

theorem reaches_inOrder_cons {regex : Regex} {rest : List Regex} {place next : Place} :
    Reaches (inOrder (regex :: rest)) place next ↔
      ∃ middle, Reaches regex place middle ∧ Reaches (inOrder rest) middle next := by
  cases rest with
  | nil =>
    constructor
    · exact fun way => ⟨next, way, rfl⟩
    · rintro ⟨middle, way, same⟩
      cases same
      exact way
  | cons second rest => exact Iff.rfl

theorem reaches_inOrder_append {first second : List Regex} {place next : Place} :
    Reaches (inOrder (first ++ second)) place next ↔
      ∃ middle, Reaches (inOrder first) place middle ∧ Reaches (inOrder second) middle next := by
  induction first generalizing place with
  | nil => simp [inOrder, Reaches]
  | cons regex rest inductionHypothesis =>
    rw [List.cons_append, reaches_inOrder_cons]
    simp only [inductionHypothesis, reaches_inOrder_cons]
    constructor
    · rintro ⟨middle, here, last, there, rest⟩
      exact ⟨last, ⟨middle, here, there⟩, rest⟩
    · rintro ⟨last, ⟨middle, here, there⟩, rest⟩
      exact ⟨middle, here, last, there, rest⟩

/-- The pattern of a text passes that text. -/
theorem reaches_parts {text : String} {place next : Place} :
    Reaches (inOrder (parts text)) place next ↔ place.Passes text.toList next := by
  suffices general : ∀ (characters : List Char) (place : Place),
      Reaches (inOrder (characters.map exactly)) place next ↔ place.Passes characters next from
    general text.toList place
  intro characters
  induction characters with
  | nil =>
    intro place
    constructor
    · intro same
      cases same
      exact .nil _
    · intro passes
      obtain ⟨offset, before, after, groups⟩ := passes
      cases place
      cases next
      simp_all [inOrder, Reaches]
  | cons character rest inductionHypothesis =>
    intro place
    rw [List.map_cons, reaches_inOrder_cons]
    constructor
    · rintro ⟨middle, here, there⟩
      exact (reaches_exactly.mp here).append ((inductionHypothesis middle).mp there)
    · intro passes
      have shape : place.after = character :: (rest ++ next.after) := passes.after
      refine ⟨⟨place.offset + 1, character :: place.before, rest ++ next.after, place.groups⟩,
        reaches_exactly.mpr ⟨rfl, rfl, shape, rfl⟩, (inductionHypothesis _).mpr ⟨?_, ?_, rfl, ?_⟩⟩
      · rw [passes.offset, List.length_cons]
        simp only
        omega
      · rw [passes.before, List.reverse_cons, List.append_assoc]
        rfl
      · exact passes.groups

/-! ### Searching a text -/

/-- A place passes the text that comes next in exactly one way, and no other text. -/
theorem run_map_exactly (characters : List Char) (place : Place) (follow : Continuation) :
    (inOrder (characters.map exactly)).run place follow =
      if characters.isPrefixOf place.after then follow (place.skip characters) else none := by
  induction characters generalizing place with
  | nil => rfl
  | cons character rest inductionHypothesis =>
    have one : (inOrder ((character :: rest).map exactly)).run place follow =
        (exactly character).run place fun next =>
          (inOrder (rest.map exactly)).run next follow := by
      cases rest <;> rfl
    rw [one, exactly, run]
    cases after : place.after with
    | nil => rfl
    | cons next later =>
      have test : CharacterTest.admits (.single character.toNat) false next =
          (character == next) := by
        rw [Bool.eq_iff_iff, admits_exactly, beq_iff_eq]
        exact eq_comm
      simp only [test, List.isPrefixOf, inductionHypothesis]
      by_cases same : character = next
      · have skipped : Place.skip ⟨place.offset + 1, next :: place.before, later, place.groups⟩
            rest = place.skip (character :: rest) := by
          rw [Place.skip, Place.skip, after, same]
          simp [Nat.add_comm, Nat.add_left_comm]
        rw [skipped]
        simp [same]
      · simp [same]

/-- The pattern of a text occurs exactly where the text does. -/
theorem occursIn_parts (text : String) (line : Line) :
    (inOrder (parts text)).occursIn line = Text.includes text.toList line := by
  have matched (offset : Nat) (before after : List Char) :
      ((inOrder (parts text)).matchAt? false ⟨offset, before, after, []⟩).isSome =
        text.toList.isPrefixOf after := by
    rw [matchAt?, parts, run_map_exactly]
    cases text.toList.isPrefixOf after <;> simp
  have searched (offset : Nat) (before : List Char) :
      ((inOrder (parts text)).searchFrom false offset before line).isSome =
        Text.includes text.toList line := by
    induction line generalizing offset before with
    | nil =>
      rw [searchFrom, matched, Text.includes, Text.find?]
      cases text.toList <;> rfl
    | cons character rest inductionHypothesis =>
      have here := matched offset before (character :: rest)
      rw [searchFrom, Text.includes, Text.find?]
      split
      · rename_i found
        rw [found, Option.isSome_some] at here
        rw [if_pos here.symm]
        rfl
      · rename_i none
        rw [none, Option.isSome_none] at here
        rw [inductionHypothesis, if_neg (by rw [← here]; exact Bool.false_ne_true),
          Option.isSome_map]
        rfl
  exact searched 0 []

end Regex

end CrateAudit
