/-
This file compares the two patterns that recognise a public function: the one that asks for
its documentation, which takes qualifiers in any order and number, and the one that finds
definitions, whose size and parameters are checked and in which a call can be fixed. The
second one finds a public function exactly if its qualifiers are some of `const`, `async`
and `unsafe`, in this order and each of them once. So a function with a foreign interface
is asked for documentation and otherwise overlooked.
-/

import CrateAudit.Proofs.Discards
import CrateAudit.Proofs.Enclosing
import CrateAudit.Proofs.Matches
import CrateAudit.Proofs.ReadSettings
import CrateAudit.Proofs.Trials
import CrateAudit.Scan.RustFile

namespace CrateAudit

namespace Scan

open Regex
open Text (IsGap)

/-! ### How a public function is written -/

/-- What may stand between the visibility of a function and its `fn`. -/
inductive Qualifier where
  | asynchronous
  | constant
  | unguarded
  | foreign
  deriving DecidableEq, Repr

/-- The word of a qualifier. -/
def Qualifier.word : Qualifier → String
  | .asynchronous => "async"
  | .constant => "const"
  | .unguarded => "unsafe"
  | .foreign => "extern"

/-- How a qualifier is written. A foreign one names its interface after its word, in quotes. -/
inductive Qualifier.Spells : Qualifier → Line → Prop where
  | word {qualifier : Qualifier} (plain : qualifier ≠ .foreign) :
    Spells qualifier qualifier.word.toList
  | interface {gap name : Line} (isGap : IsGap gap) (open_ : '"' ∉ name) :
    Spells .foreign (Qualifier.foreign.word.toList ++ gap ++ ('"' :: name ++ ['"']))

/-- The rest of a line from the qualifiers of a function on. -/
inductive OpensFunction : List Qualifier → Line → Prop where
  | bare {blank : Char} (isBlank : Text.isBlank blank = true) (rest : Line) :
    OpensFunction [] ("fn".toList ++ blank :: rest)
  | qualified {qualifier : Qualifier} {qualifiers : List Qualifier} {spelled gap rest : Line}
    (spells : qualifier.Spells spelled) (isGap : IsGap gap)
    (opens : OpensFunction qualifiers rest) :
    OpensFunction (qualifier :: qualifiers) (spelled ++ gap ++ rest)

/-- Where an item is visible, if that is said, in parentheses. -/
inductive IsVisibility : Line → Prop where
  | everywhere : IsVisibility []
  | within {place : Line} (closed : ')' ∉ place) : IsVisibility ('(' :: place ++ [')'])

/-- A line declares a public function with some qualifiers. -/
inductive DeclaresPublicFunction (qualifiers : List Qualifier) : Line → Prop where
  | intro {margin visibility gap rest : Line}
    (blank : ∀ character ∈ margin, Text.isBlank character = true)
    (visible : IsVisibility visibility) (isGap : IsGap gap)
    (opens : OpensFunction qualifiers rest) :
    DeclaresPublicFunction qualifiers (margin ++ ("pub".toList ++ visibility ++ gap ++ rest))

/-! ### What the pattern of public items takes for a function -/

/-- The pattern of one qualifier. -/
def qualifierPattern : Regex :=
  firstOf
    [inOrder (parts "async"), inOrder (parts "const"), inOrder (parts "unsafe"),
      inOrder (parts "extern" ++
        [atLeastOne blank, exactly '"', many (noneOf ['"']), exactly '"'])]

/-- The pattern of the kind of an item. -/
def itemPattern : Regex :=
  firstOf (["fn", "struct", "enum", "trait", "type", "const", "static", "union"].map
    fun word => inOrder (parts word))

/-- The pattern of the place where an item is visible. -/
def placePattern : List Regex :=
  [exactly '('] ++ [many (noneOf [')'])] ++ [exactly ')']

theorem publicItem_eq : publicItem =
    inOrder (.anchor .start :: many blank :: (parts "pub" ++
      perhaps (.group 1 (inOrder placePattern)) :: atLeastOne blank ::
      many (.group 2 (inOrder [.group 3 qualifierPattern, atLeastOne blank])) ::
      [.group 4 itemPattern, blank])) := rfl

/-- Characters but one are passed by the pattern for them. -/
theorem moves_of_noneOf {stop : Char} {place next : Place}
    (way : Reaches (many (noneOf [stop])) place next) :
    ∃ text, stop ∉ text ∧ place.Passes text next := by
  obtain ⟨count, _, rounds⟩ := way
  obtain ⟨text, _, admitted, passes⟩ := passes_of_rounds rounds
  refine ⟨text, fun member => ?_, passes⟩
  have apart : stop ∉ [stop] := admits_noneOf.mp (admitted stop member)
  exact apart (List.mem_singleton_self stop)

theorem exists_visibility_of_run {index : Nat} {place final : Place} {follow : Continuation}
    (found : (perhaps (.group index (inOrder placePattern))).run place follow = some final) :
    ∃ visibility next, IsVisibility visibility ∧ place.Moves visibility next ∧
      follow next = some final := by
  rw [run_perhaps] at found
  rcases orTry_eq_some.mp found with said | ⟨_, followed⟩
  · obtain ⟨_, ⟨next, way, rfl⟩, followed⟩ := exists_reaches_of_run said
    obtain ⟨opened, opening, way⟩ := reaches_inOrder_cons.mp way
    obtain ⟨last, inner, closing⟩ := reaches_inOrder_cons.mp way
    obtain ⟨within, closed, passes⟩ := moves_of_noneOf inner
    refine ⟨'(' :: within ++ [')'], _, .within closed, ?_, followed⟩
    exact (((reaches_exactly.mp opening).append passes).append
      (reaches_exactly.mp closing)).moves.regroup _
  · exact ⟨[], place, .everywhere, (Place.Passes.nil place).moves, followed⟩

theorem exists_spells_of_reaches {place next : Place}
    (way : Reaches qualifierPattern place next) :
    ∃ qualifier : Qualifier, ∃ spelled, qualifier.Spells spelled ∧ place.Passes spelled next := by
  rcases way with way | way | way | way
  · exact ⟨.asynchronous, _, .word (by decide), reaches_parts.mp way⟩
  · exact ⟨.constant, _, .word (by decide), reaches_parts.mp way⟩
  · exact ⟨.unguarded, _, .word (by decide), reaches_parts.mp way⟩
  · obtain ⟨afterWord, word, way⟩ := reaches_inOrder_append.mp way
    obtain ⟨opened, blanks, way⟩ := reaches_inOrder_cons.mp way
    obtain ⟨gap, gap_blank, long, passesGap⟩ := passes_of_blanks blanks
    obtain ⟨inside, quote, way⟩ := reaches_inOrder_cons.mp way
    obtain ⟨last, way, quote'⟩ := reaches_inOrder_cons.mp way
    obtain ⟨name, open_, passesName⟩ := moves_of_noneOf way
    refine ⟨.foreign, _, .interface ⟨List.ne_nil_of_length_pos long, gap_blank⟩ open_, ?_⟩
    exact ((reaches_parts.mp word).append passesGap).append
      (((reaches_exactly.mp quote).append passesName).append (reaches_exactly.mp quote'))

/-- Each round of the pattern of qualifiers passes one more of them. -/
theorem exists_opensFunction_of_rounds {count : Nat} {place next : Place}
    {qualifiers : List Qualifier}
    (rounds : Rounds (Reaches (.group 2 (inOrder [.group 3 qualifierPattern, atLeastOne blank])))
      count place next) (opens : OpensFunction qualifiers next.after) :
    ∃ qualifiers, OpensFunction qualifiers place.after := by
  induction count generalizing place with
  | zero => exact ⟨qualifiers, rounds ▸ opens⟩
  | succ count inductionHypothesis =>
    obtain ⟨_, ⟨middle, way, rfl⟩, later⟩ := rounds
    obtain ⟨others, opens⟩ := inductionHypothesis later
    obtain ⟨_, ⟨afterWord, word, rfl⟩, blanks⟩ := reaches_inOrder_cons.mp way
    obtain ⟨qualifier, spelled, spells, passes⟩ := exists_spells_of_reaches word
    obtain ⟨gap, gap_blank, long, passesGap⟩ := passes_of_blanks blanks
    refine ⟨qualifier :: others, ?_⟩
    have left : place.after = spelled ++ gap ++ middle.after := by
      rw [passes.after, List.append_assoc]
      exact congrArg _ passesGap.after
    rw [left]
    exact .qualified spells ⟨List.ne_nil_of_length_pos long, gap_blank⟩ opens

/-- The item is the text that the fourth group captures. If that is `fn`, a function is opened. -/
theorem opensFunction_of_captured? {line : Line} {place afterItem final : Place}
    (stands : place.StandsIn line) (item : Reaches itemPattern place afterItem)
    (ends : Reaches blank (afterItem.capture 4 place.offset) final)
    (captured : final.captured? 4 = some "fn".toList) : OpensFunction [] place.after := by
  obtain ⟨blank, isBlank, passesBlank⟩ := ends
  obtain ⟨own, movesItem⟩ := moves_of_reaches item
  have item_eq : own = "fn".toList := by
    have captured' := (Fix.captured?_of_passes passesBlank).symm.trans captured
    simp only [Place.captured?, Place.capture, List.lookup_cons, beq_self_eq_true,
      Option.map_some, Option.some_inj] at captured'
    exact (stands.between movesItem).symm.trans captured'
  have left : afterItem.after = [blank] ++ final.after := passesBlank.after
  rw [movesItem.after, item_eq, left]
  exact .bare (admits_blank.mp isBlank) final.after

/-- What the pattern of public items takes for a function is written as one. -/
theorem exists_declaresPublicFunction {line : Line}
    (reads : (publicItem.matchStart? line).bind (·.group? 4) = some "fn".toList) :
    ∃ qualifiers, DeclaresPublicFunction qualifiers line := by
  obtain ⟨found, matched, captured⟩ := Option.bind_eq_some_iff.mp reads
  obtain ⟨final, found, rfl⟩ := Option.map_eq_some_iff.mp matched
  rw [publicItem_eq, run_inOrder_cons] at found
  obtain ⟨_, ⟨_, rfl⟩, found⟩ := exists_reaches_of_run found
  rw [run_inOrder_cons] at found
  obtain ⟨margin, passesMargin, _, found⟩ := exists_canPass_of_run found
  rw [run_parts_append] at found
  split at found
  · rename_i word
    rw [run_inOrder_cons] at found
    obtain ⟨visibility, afterVisibility, visible, movesVisibility, found⟩ :=
      exists_visibility_of_run found
    obtain ⟨reached, way, same⟩ := exists_reaches_of_run found
    cases same
    obtain ⟨afterGap, blanks, way⟩ := reaches_inOrder_cons.mp way
    obtain ⟨gap, gap_blank, long, passesGap⟩ := passes_of_blanks blanks
    obtain ⟨beforeItem, ⟨count, _, rounds⟩, way⟩ := reaches_inOrder_cons.mp way
    obtain ⟨_, ⟨afterItem, item, rfl⟩, ends⟩ := reaches_inOrder_cons.mp way
    have start : Place.StandsIn (Place.start line) line := ⟨rfl, rfl⟩
    have wayRounds : Reaches (many (.group 2
        (inOrder [.group 3 qualifierPattern, atLeastOne Regex.blank]))) afterGap beforeItem :=
      ⟨count, Nat.zero_le count, rounds⟩
    obtain ⟨text, movesRounds⟩ := moves_of_reaches wayRounds
    have stands := ((((start.of_moves (Place.passes_skip passesMargin.comes).moves).of_moves
      (Place.passes_skip (List.isPrefixOf_iff_prefix.mp word)).moves).of_moves
        movesVisibility).of_moves passesGap.moves).of_moves movesRounds
    have opens := opensFunction_of_captured? stands item ends captured
    obtain ⟨qualifiers, opens⟩ := exists_opensFunction_of_rounds rounds opens
    refine ⟨qualifiers, ?_⟩
    have whole : line = margin ++ ("pub".toList ++ visibility ++ gap ++ afterGap.after) := by
      have first : line = margin ++ ((Place.start line).skip margin).after :=
        (Place.passes_skip passesMargin.comes).after
      have second := (Place.passes_skip (List.isPrefixOf_iff_prefix.mp word)).after
      rw [movesVisibility.after, passesGap.after] at second
      rw [first, second]
      simp only [List.append_assoc]
    rw [whole]
    exact .intro (fun character member => admits_blank.mp (passesMargin.admitted character member))
      visible ⟨List.ne_nil_of_length_pos long, gap_blank⟩ opens
  · cases found

/-! ### What the pattern of definitions takes for one -/

/-- The texts of a definition from its qualifiers on, where each of some may stand once, in their
order. -/
def Opening : List Qualifier → Line → Prop
  | [], text => ∃ gap, IsGap gap ∧ text = "fn".toList ++ gap
  | qualifier :: optional, text =>
    ∃ start rest, (start = [] ∨ ∃ gap, IsGap gap ∧ start = qualifier.word.toList ++ gap) ∧
      Opening optional rest ∧ text = start ++ rest

/-- The qualifiers that the pattern of definitions knows, in its order. -/
def knownQualifiers : List Qualifier :=
  [.constant, .asynchronous, .unguarded]

theorem passesExactly_gap_after (text : String) :
    (inOrder (parts text ++ [atLeastOne blank])).PassesExactly
      fun line => ∃ gap, IsGap gap ∧ line = text.toList ++ gap := by
  refine ((PassesExactly.parts text).append PassesExactly.gap.alone).congr fun line => ?_
  constructor
  · rintro ⟨_, gap, rfl, isGap, rfl⟩
    exact ⟨gap, isGap, rfl⟩
  · rintro ⟨gap, isGap, rfl⟩
    exact ⟨_, gap, rfl, isGap, rfl⟩

/-- The pattern of some qualifiers that may be left out, and of `fn` after them. -/
theorem passesExactly_opening (optional : List (Nat × Qualifier)) :
    (inOrder ((optional.map fun part => perhaps (.group part.1
      (inOrder (parts part.2.word ++ [atLeastOne blank])))) ++
        (parts "fn" ++ [atLeastOne blank]))).PassesExactly (Opening (optional.map (·.2))) := by
  induction optional with
  | nil => exact passesExactly_gap_after "fn"
  | cons part optional inductionHypothesis =>
    exact ((passesExactly_gap_after part.2.word).group part.1).perhaps.cons inductionHypothesis

theorem passesExactly_visibility (index : Nat) :
    (perhaps (.group index (inOrder placePattern))).PassesExactly IsVisibility := by
  have inner := (PassesExactly.exactly '(').cons
    ((PassesExactly.repetition (.oneOf ([')'].map fun own => .single own.toNat) true) 0 true).cons
      (PassesExactly.exactly ')').alone)
  refine (inner.group index).perhaps.congr fun text => ?_
  simp only [admits_noneOf, List.mem_singleton]
  constructor
  · rintro (rfl | ⟨_, _, rfl, ⟨place, _, ⟨closed, _⟩, rfl, rfl⟩, rfl⟩)
    · exact .everywhere
    · exact .within fun member => closed ')' member rfl
  · rintro (_ | ⟨closed⟩)
    · exact Or.inl rfl
    · refine Or.inr ⟨['('], _, rfl, ⟨_, [')'], ⟨fun character member same => ?_, Nat.zero_le _⟩,
        rfl, rfl⟩, rfl⟩
      exact closed (same ▸ member)

/-- A definition begins with its qualifiers, after blanks; what makes an item visible may stand
before them. -/
theorem startsLine_functionDefinition {line : Line} :
    Rule.functionDefinition.regex.startsLine line = true ↔
      ∃ margin start opening, (∀ character ∈ margin, Text.isBlank character = true) ∧
        (start = [] ∨ ∃ visibility gap, IsVisibility visibility ∧ IsGap gap ∧
          start = "pub".toList ++ (visibility ++ gap)) ∧
        Opening knownQualifiers opening ∧ margin ++ (start ++ opening) <+: line := by
  have shape : Rule.functionDefinition.regex = inOrder (.anchor .start :: many blank ::
      perhaps (.group 1 (inOrder (parts "pub" ++
        ([perhaps (.group 2 (inOrder placePattern))] ++ [atLeastOne blank])))) ::
      (([(3, .constant), (4, .asynchronous), (5, .unguarded)].map fun part : Nat × Qualifier =>
        perhaps (.group part.1 (inOrder (parts part.2.word ++ [atLeastOne blank])))) ++
          (parts "fn" ++ [atLeastOne blank]))) := rfl
  have visible := ((PassesExactly.parts "pub").append
    ((passesExactly_visibility 2).alone.append PassesExactly.gap.alone)).group 1
  have whole := PassesExactly.blanks.cons (visible.perhaps.cons
    (passesExactly_opening [(3, .constant), (4, .asynchronous), (5, .unguarded)]))
  rw [shape, startsLine_start_cons]
  refine whole.startsLine_iff.trans ?_
  constructor
  · rintro ⟨_, ⟨margin, _, blank, ⟨start, opening, said, opens, rfl⟩, rfl⟩, begins⟩
    refine ⟨margin, start, opening, blank, said.imp_right ?_, opens, begins⟩
    rintro ⟨_, _, rfl, ⟨visibility, gap, visible, isGap, rfl⟩, rfl⟩
    exact ⟨visibility, gap, visible, isGap, rfl⟩
  · rintro ⟨margin, start, opening, blank, said, opens, begins⟩
    refine ⟨_, ⟨margin, _, blank, ⟨start, opening, said.imp_right ?_, opens, rfl⟩, rfl⟩, begins⟩
    rintro ⟨visibility, gap, visible, isGap, rfl⟩
    exact ⟨_, _, rfl, ⟨visibility, gap, visible, isGap, rfl⟩, rfl⟩

/-! ### Words and gaps are told apart in one way only -/

/-- What follows a gap is found by trimming it, if it does not begin with a blank itself. -/
theorem eq_of_gap_append {gap gap' rest rest' : Line} (isGap : IsGap gap) (isGap' : IsGap gap')
    (filled : rest.head?.all Text.isBlank = false)
    (filled' : rest'.head?.all Text.isBlank = false) (same : gap ++ rest = gap' ++ rest') :
    rest = rest' := by
  rw [← Text.trimStart_append isGap.blank filled, same,
    Text.trimStart_append isGap'.blank filled']

/-- The first letter of a qualifier. -/
def Qualifier.initial : Qualifier → Char
  | .asynchronous => 'a'
  | .constant => 'c'
  | .unguarded => 'u'
  | .foreign => 'e'

/-- The first letter of a function, with its first qualifier if there is any. -/
def initialOf : Option Qualifier → Char
  | none => 'f'
  | some qualifier => qualifier.initial

theorem initialOf_injective {first second : Option Qualifier}
    (same : initialOf first = initialOf second) : first = second := by
  rcases first with _ | _ | _ | _ | _ <;> rcases second with _ | _ | _ | _ | _ <;>
    first | rfl | exact absurd same (by decide)

theorem isBlank_initialOf (first : Option Qualifier) : Text.isBlank (initialOf first) = false := by
  rcases first with _ | _ | _ | _ | _ <;> rfl

theorem Qualifier.head?_word (qualifier : Qualifier) (rest : Line) :
    (qualifier.word.toList ++ rest).head? = some qualifier.initial := by
  cases qualifier <;> rfl

theorem head?_opensFunction {qualifiers : List Qualifier} {text : Line}
    (opens : OpensFunction qualifiers text) : text.head? = some (initialOf qualifiers.head?) := by
  cases opens with
  | bare isBlank rest => rfl
  | qualified spells isGap opens =>
    cases spells with
    | word plain =>
      rw [List.append_assoc]
      exact Qualifier.head?_word _ _
    | interface isGap open_ =>
      simp only [List.append_assoc]
      exact Qualifier.head?_word .foreign _

theorem head?_opening {optional : List Qualifier} {text : Line} (opens : Opening optional text) :
    ∃ first, text.head? = some (initialOf first) := by
  induction optional generalizing text with
  | nil =>
    obtain ⟨gap, _, rfl⟩ := opens
    exact ⟨none, rfl⟩
  | cons qualifier optional inductionHypothesis =>
    obtain ⟨start, rest, said, opens, rfl⟩ := opens
    rcases said with rfl | ⟨gap, _, rfl⟩
    · exact inductionHypothesis opens
    · refine ⟨some qualifier, ?_⟩
      rw [List.append_assoc]
      exact qualifier.head?_word _

theorem filled_opensFunction {qualifiers : List Qualifier} {text : Line}
    (opens : OpensFunction qualifiers text) : text.head?.all Text.isBlank = false := by
  rw [head?_opensFunction opens, Option.all_some, isBlank_initialOf]

theorem filled_opening {optional : List Qualifier} {text : Line} (opens : Opening optional text)
    (more : Line) : (text ++ more).head?.all Text.isBlank = false := by
  obtain ⟨first, head⟩ := head?_opening opens
  rw [List.head?_append, head, Option.some_or, Option.all_some, isBlank_initialOf]

/-- A line that goes on with a plain qualifier and a gap has it as its first one. -/
theorem exists_opensFunction_of_word {qualifier : Qualifier} (plain : qualifier ≠ .foreign)
    {qualifiers : List Qualifier} {gap rest : Line} (isGap : IsGap gap)
    (filled : rest.head?.all Text.isBlank = false)
    (opens : OpensFunction qualifiers (qualifier.word.toList ++ (gap ++ rest))) :
    ∃ others, qualifiers = qualifier :: others ∧ OpensFunction others rest := by
  have head := head?_opensFunction opens
  rw [qualifier.head?_word] at head
  have next : some qualifier = qualifiers.head? := initialOf_injective (Option.some.inj head)
  generalize same : qualifier.word.toList ++ (gap ++ rest) = text at opens
  cases opens with
  | bare => cases next
  | qualified spells isGap' opens =>
    cases next
    cases spells with
    | interface => exact absurd rfl plain
    | word =>
      rw [List.append_assoc] at same
      have cut := eq_of_gap_append isGap isGap' filled (filled_opensFunction opens)
        (List.append_cancel_left same)
      exact ⟨_, rfl, cut ▸ opens⟩

/-! ### Where the two patterns agree -/

/-- What is left of a line from the qualifiers on is a definition for some optional qualifiers
exactly if its own are among them, in their order. -/
theorem opening_iff_sublist {optional qualifiers : List Qualifier} {text : Line}
    (plain : Qualifier.foreign ∉ optional) (opens : OpensFunction qualifiers text) :
    (∃ opening, Opening optional opening ∧ opening <+: text) ↔ qualifiers.Sublist optional := by
  induction optional generalizing qualifiers text with
  | nil =>
    rw [List.sublist_nil]
    constructor
    · rintro ⟨_, ⟨gap, _, rfl⟩, more, rfl⟩
      have head := head?_opensFunction opens
      exact List.head?_eq_none_iff.mp (initialOf_injective (Option.some.inj head).symm)
    · rintro rfl
      cases opens with
      | @bare blank isBlank rest =>
        refine ⟨"fn".toList ++ [blank], ⟨[blank], ⟨List.cons_ne_nil _ _, ?_⟩, rfl⟩, rest, rfl⟩
        exact List.forall_mem_singleton.mpr isBlank
  | cons qualifier optional inductionHypothesis =>
    rw [List.mem_cons, not_or] at plain
    rw [List.sublist_cons_iff, ← inductionHypothesis plain.2 opens]
    constructor
    · rintro ⟨_, ⟨start, opening, said, own, rfl⟩, begins⟩
      rcases said with rfl | ⟨gap, isGap, rfl⟩
      · exact Or.inl ⟨opening, own, begins⟩
      · obtain ⟨more, rfl⟩ := begins
        rw [List.append_assoc, List.append_assoc] at opens
        obtain ⟨others, rfl, later⟩ := exists_opensFunction_of_word (Ne.symm plain.1) isGap
          (filled_opening own more) opens
        exact Or.inr ⟨others, rfl, (inductionHypothesis plain.2 later).mp
          ⟨opening, own, List.prefix_append _ _⟩⟩
    · rintro (⟨opening, own, begins⟩ | ⟨others, rfl, among⟩)
      · exact ⟨opening, ⟨[], opening, Or.inl rfl, own, rfl⟩, begins⟩
      · cases opens with
        | qualified spells isGap opens =>
          obtain ⟨opening, own, more, rfl⟩ := (inductionHypothesis plain.2 opens).mpr among
          cases spells with
          | word => exact ⟨_, ⟨_, opening, Or.inr ⟨_, isGap, rfl⟩, own, rfl⟩, more, by simp⟩
          | interface => exact absurd rfl plain.1

/-- Two ways to read the visibility of an item and the gap after it go on alike. -/
theorem eq_of_visibility_append {visibility visibility' gap gap' rest rest' : Line}
    (visible : IsVisibility visibility) (visible' : IsVisibility visibility') (isGap : IsGap gap)
    (isGap' : IsGap gap') (filled : rest.head?.all Text.isBlank = false)
    (filled' : rest'.head?.all Text.isBlank = false)
    (same : visibility ++ (gap ++ rest) = visibility' ++ (gap' ++ rest')) : rest = rest' := by
  -- A gap does not begin with a parenthesis, so both name a place or none does.
  have apart {gap rest place : Line} (isGap : IsGap gap) :
      gap ++ rest ≠ '(' :: place := by
    intro same
    obtain ⟨first, more, rfl⟩ := List.exists_cons_of_ne_nil isGap.filled
    have blank := isGap.blank first List.mem_cons_self
    rw [(List.cons.inj same).1] at blank
    exact absurd blank (by decide)
  have after {place rest : Line} (closed : ')' ∉ place) :
      (place ++ ')' :: rest).dropWhile (· != ')') = ')' :: rest := by
    refine (List.dropWhile_append_of_pos fun character member => ?_).trans rfl
    exact bne_iff_ne.mpr fun same => closed (same ▸ member)
  cases visible with
  | everywhere =>
    cases visible' with
    | everywhere => exact eq_of_gap_append isGap isGap' filled filled' same
    | within closed' => exact (apart isGap same).elim
  | within closed =>
    cases visible' with
    | everywhere => exact (apart isGap' same.symm).elim
    | within closed' =>
      simp only [List.cons_append, List.append_assoc, List.cons.injEq, true_and,
        List.nil_append] at same
      have past := congrArg (List.dropWhile (· != ')')) same
      rw [after closed, after closed'] at past
      exact eq_of_gap_append isGap isGap' filled filled' (List.cons.inj past).2

/-- The pattern of definitions finds a public function exactly if its qualifiers are some of those
that it knows, in their order. -/
theorem startsLine_iff_sublist {qualifiers : List Qualifier} {line : Line}
    (declares : DeclaresPublicFunction qualifiers line) :
    Rule.functionDefinition.regex.startsLine line = true ↔
      qualifiers.Sublist knownQualifiers := by
  obtain ⟨blank, visible, isGap, opens⟩ := declares
  rename_i margin visibility gap rest
  rw [startsLine_functionDefinition, ← opening_iff_sublist (by decide) opens]
  constructor
  · rintro ⟨margin', start, opening, blank', said, own, more, same⟩
    have visibleLine : Text.trimStart (margin ++ ("pub".toList ++ visibility ++ gap ++ rest)) =
        "pub".toList ++ visibility ++ gap ++ rest := Text.trimStart_append blank rfl
    rcases said with rfl | ⟨visibility', gap', visible', isGap', rfl⟩
    · -- Without a visibility the line would begin with another letter.
      rw [← same, List.nil_append, List.append_assoc,
        Text.trimStart_append blank' (filled_opening own more)] at visibleLine
      obtain ⟨first, head⟩ := head?_opening own
      have letter := congrArg List.head? visibleLine
      rw [List.head?_append, head, Option.some_or] at letter
      rcases first with _ | _ | _ | _ | _ <;> cases letter
    · rw [← same, List.append_assoc, Text.trimStart_append blank' rfl] at visibleLine
      simp only [List.append_assoc] at visibleLine
      have left := eq_of_visibility_append visible' visible isGap' isGap (filled_opening own more)
        (filled_opensFunction opens) (List.append_cancel_left visibleLine)
      exact ⟨opening, own, more, left⟩
  · rintro ⟨opening, own, more, rfl⟩
    refine ⟨margin, _, opening, blank, Or.inr ⟨visibility, gap, visible, isGap, rfl⟩, own, more, ?_⟩
    simp only [List.append_assoc]

/-- No attribute stands before a public function on its line. -/
theorem definesFunction_iff_startsLine {qualifiers : List Qualifier} {line : Line}
    (declares : DeclaresPublicFunction qualifiers line) :
    definesFunction line = true ↔ Rule.functionDefinition.regex.startsLine line = true := by
  have bare : leadingAttributes.startsLine line = false := by
    refine Bool.not_eq_true _ |>.mp fun attributed => ?_
    obtain ⟨blank, _, _, _⟩ := declares
    have opens := prefix_of_leadingAttributes attributed
    rw [Text.trimStart_append blank rfl] at opens
    exact absurd (List.cons_prefix_cons.mp opens).1 (by decide)
  rw [startsLine_iff_definesFunction]
  exact (and_iff_left bare).symm

/-- A line that is asked for the documentation of a public function declares one. It is taken for a
definition, by the checks of its size and its parameters as well as in the search for the function
around a line, exactly if its qualifiers are some of those that the pattern of definitions knows, in
their order. -/
theorem publicFunction_isDefinition_iff {line : Line}
    (reads : (publicItem.matchStart? line).bind (·.group? 4) = some "fn".toList) :
    (∃ qualifiers, DeclaresPublicFunction qualifiers line) ∧
      ∀ qualifiers, DeclaresPublicFunction qualifiers line →
        (definesFunction line = true ↔ qualifiers.Sublist knownQualifiers) ∧
        (Rule.functionDefinition.regex.startsLine line = true ↔
          qualifiers.Sublist knownQualifiers) := by
  refine ⟨exists_declaresPublicFunction reads, fun qualifiers declares => ?_⟩
  have found := startsLine_iff_sublist declares
  exact ⟨(definesFunction_iff_startsLine declares).trans found, found⟩

/-- A public function with two qualifiers that may stand together. -/
def guardedLine : Line := "    pub(crate) const unsafe fn read(at: usize) -> u8 \x7b".toList

theorem publicFunction_isDefinition_iff_guardedLine :
    (publicItem.matchStart? guardedLine).bind (·.group? 4) = some "fn".toList ∧
      (∃ qualifiers, DeclaresPublicFunction qualifiers guardedLine) ∧
      ∀ qualifiers, DeclaresPublicFunction qualifiers guardedLine →
        (definesFunction guardedLine = true ↔ qualifiers.Sublist knownQualifiers) ∧
        (Rule.functionDefinition.regex.startsLine guardedLine = true ↔
          qualifiers.Sublist knownQualifiers) := by
  have reads : (publicItem.matchStart? guardedLine).bind (·.group? 4) = some "fn".toList := by
    decide
  exact ⟨reads, publicFunction_isDefinition_iff reads⟩

/-- A public function that other languages can call. -/
def foreignLine : Line := "pub extern \"C\" fn handle(_code: i32) \x7b\x7d".toList

/-- Its documentation is missed, but it is no definition, so its parameter is not. -/
theorem not_isDefinition_foreignLine :
    (publicItem.matchStart? foreignLine).bind (·.group? 4) = some "fn".toList ∧
      definesFunction foreignLine = false ∧
      Rule.functionDefinition.regex.startsLine foreignLine = false ∧
      rustFile .standard (.ofText "src/lib.rs" foreignLine) none =
        [⟨.missingDocs, "src/lib.rs", 1, "Public fn is missing a /// doc comment", .warning⟩] := by
  refine ⟨by decide, by decide, by decide, by decide +kernel⟩

end Scan

end CrateAudit
