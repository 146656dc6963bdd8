/-
This file says which texts make a function count as one that returns a result or an
option. Its signature is read as it is written, so a marker counts wherever it begins in
the signature's lines. Every character of these lines is labelled with whether it is code.
At the arrow of the function's own return type a marker is code from end to end; every
other one stands in a comment, in a literal, or at the arrow of another type.
-/

import CrateAudit.Proofs.CodeText
import CrateAudit.Proofs.Enclosing
import CrateAudit.Proofs.Planning
import Mathlib.Data.List.DropRight

namespace CrateAudit

namespace Rust

/-! ### Text that knows where it is code -/

/-- A text, each of its characters with whether it is code. -/
abbrev Labelled := List (Char × Bool)

namespace Labelled

/-- The text itself. -/
def text (labelled : Labelled) : Line :=
  labelled.map Prod.fst

/-- The text with a blank for each character that is not code. -/
def code (labelled : Labelled) : Line :=
  labelled.map fun entry => if entry.2 then entry.1 else ' '

/-- A line after the reversed text `before`. -/
def after (before line : Line) : Labelled :=
  (tokensAfter before line).flatMap fun token => token.text.map (·, token.kind == .code)

/-- The text without blanks at either end, whether these are code or not. -/
def trim (labelled : Labelled) : Labelled :=
  (labelled.dropWhile fun entry => Text.isBlank entry.1).rdropWhile fun entry =>
    Text.isBlank entry.1

/-- The texts without their outer blanks, the empty ones left out, joined by one blank each. -/
def join (pieces : List Labelled) : Labelled :=
  [(' ', true)].intercalate ((pieces.map trim).filter (!·.isEmpty))

end Labelled

/-- The signature that starts at a line. -/
def labelledSignature (lines : List Line) (start : Nat) : Labelled :=
  .join ((signatureLines (lines.drop start)).map (.after []))

/-! ### The function's own return type -/

/-- How far on the first opening parenthesis stands that no angle bracket holds. The tip of an arrow
closes no angle bracket. -/
def parametersFrom? (depth : Nat) : Line → Option Nat
  | [] => none
  | '-' :: '>' :: rest => (parametersFrom? depth rest).map (· + 2)
  | character :: rest =>
    if character = '(' ∧ depth = 0 then some 0
    else if character = '<' then (parametersFrom? (depth + 1) rest).map (· + 1)
    else if character = '>' then (parametersFrom? (depth - 1) rest).map (· + 1)
    else (parametersFrom? depth rest).map (· + 1)

/-- The arrow of the return type in the code of a signature: before the body, only blanks stand
between it and the parenthesis that closes the parameters. -/
def ownArrow? (code : Line) : Option Nat := do
  let header := Text.upTo '\x7b' code
  let name ← (Text.find? "fn ".toList header).map (· + 3)
  let opening ← (parametersFrom? 0 (header.drop name)).map (name + ·)
  let past ← (Fix.matchingParenthesis? header opening).map (· + 1)
  let arrow := past + ((header.drop past).takeWhile Text.isBlank).length
  if ['-', '>'].isPrefixOf (header.drop arrow) then some arrow else none

/-- Whether one of the markers begins at the arrow of the return type, and is code throughout. -/
def marksOwnReturn (markers : List Line) (lines : List Line) (start : Nat) : Bool :=
  let signature := labelledSignature lines start
  (ownArrow? signature.code).any fun arrow =>
    markers.any fun marker => (marker.map (·, true)).isPrefixOf (signature.drop arrow)

/-- Whether one of the markers begins at another place of the signature. -/
def marksElsewhere (markers : List Line) (lines : List Line) (start : Nat) : Bool :=
  let signature := labelledSignature lines start
  markers.any fun marker =>
    (Text.occurrences marker signature.text).any fun offset =>
      ownArrow? signature.code != some offset

/-! ### The labels follow the text -/

namespace Labelled

theorem text_append (first second : Labelled) :
    (first ++ second).text = first.text ++ second.text :=
  List.map_append

theorem text_after (before line : Line) : (after before line).text = line := by
  rw [after, text, List.map_flatMap]
  simpa [Function.comp_def] using flatMap_tokensAfter before line

theorem after_cons (before rest : Line) (first : Char) :
    after before (first :: rest) =
      ((nextToken before first rest).1.text.map
          (·, (nextToken before first rest).1.kind == .code)) ++
        after ((nextToken before first rest).1.text.reverse ++ before)
          (nextToken before first rest).2 := by
  rw [after, tokensAfter, List.flatMap_cons, after]

theorem text_trim (labelled : Labelled) : labelled.trim.text = Text.trim labelled.text := by
  simp only [trim, text, Text.trim, Text.trimEnd, Text.trimStart, List.rdropWhile,
    List.dropWhile_map, ← List.map_reverse, Function.comp_def]

theorem text_join (pieces : List Labelled) :
    (join pieces).text = joinTrimmed (pieces.map text) := by
  have trimmed : (pieces.map text).map Text.trim = (pieces.map trim).map text := by
    simp only [List.map_map, Function.comp_def, text_trim]
  have filled : (((pieces.map trim).map text).filter (!·.isEmpty)) =
      ((pieces.map trim).filter (!·.isEmpty)).map text := by
    rw [List.filter_map]
    simp only [Function.comp_def, text, List.isEmpty_map]
  rw [join, joinTrimmed, trimmed, filled]
  generalize (pieces.map trim).filter (!·.isEmpty) = found
  induction found with
  | nil => rfl
  | cons piece rest inductionHypothesis =>
    cases rest with
    | nil => simp [List.intercalate]
    | cons next rest =>
      simp only [List.map_cons, List.intercalate_cons_cons, text_append] at inductionHypothesis ⊢
      rw [inductionHypothesis]
      rfl

end Labelled

theorem text_labelledSignature (lines : List Line) (start : Nat) :
    (labelledSignature lines start).text = (signatureAt lines start).text := by
  rw [labelledSignature, Labelled.text_join, List.map_map]
  simp only [Function.comp_def, Labelled.text_after, List.map_id', signatureAt]

/-! ### Code goes on through plain characters -/

/-- Whether no literal and no comment starts with a character before the one that follows it. An `r`
at the end may start one as far as this goes: the lines are yet to be joined. -/
def isUnremarkable (character : Char) (next : Option Char) : Bool :=
  character != '/' && character != '"' && character != '\'' &&
    (character != 'r' || next.any fun other => other != '#' && other != '"' && other != ' ')

/-- Whether a text is all unremarkable, whatever follows it. -/
def isPlainText : Line → Bool
  | [] => true
  | character :: rest => isUnremarkable character rest.head? && isPlainText rest

/-- Every unremarkable character after one of code is code; `wasCode` tells whether the text stands
after one. -/
def KeepsCode (wasCode : Bool) : Labelled → Prop
  | [] => True
  | (character, isCode) :: rest =>
    (wasCode = true → isUnremarkable character (Labelled.text rest).head? = true →
      isCode = true) ∧
      KeepsCode isCode rest

theorem KeepsCode.weaken {wasCode : Bool} {labelled : Labelled} (keeps : KeepsCode true labelled) :
    KeepsCode wasCode labelled := by
  cases labelled with
  | nil => trivial
  | cons entry rest => exact ⟨fun _ => keeps.1 rfl, keeps.2⟩

theorem KeepsCode.literal {rest : Labelled} (keeps : KeepsCode true rest) (text : Line) :
    KeepsCode false (text.map (·, false) ++ rest) := by
  induction text with
  | nil => exact keeps.weaken
  | cons character text inductionHypothesis =>
    exact ⟨fun impossible => (Bool.false_ne_true impossible).elim, inductionHypothesis⟩

/-- A literal and a comment start with a remarkable character. -/
theorem nextToken_of_unremarkable {before rest : Line} {first : Char}
    (unremarkable : isUnremarkable first rest.head? = true) :
    nextToken before first rest = (⟨.code, [first]⟩, rest) := by
  simp only [isUnremarkable, Bool.and_eq_true, Bool.or_eq_true, bne_iff_ne] at unremarkable
  obtain ⟨⟨⟨noSlash, noQuote⟩, noApostrophe⟩, noRaw⟩ := unremarkable
  have closed (raw : first = 'r') : rawString? rest = none := by
    have other := noRaw.resolve_left (not_not_intro raw)
    cases rest with
    | nil => rfl
    | cons next rest =>
      simp only [List.head?_cons, Option.any_some, Bool.and_eq_true, bne_iff_ne] at other
      simp [rawString?, other.1.1, other.1.2]
  by_cases raw : first = 'r'
  · simp [nextToken, noSlash, noQuote, noApostrophe, closed raw]
  · simp [nextToken, noSlash, noQuote, noApostrophe, raw]

theorem keepsCode_after (before line : Line) : KeepsCode true (.after before line) := by
  fun_induction tokensAfter before line with
  | case1 before =>
    rw [Labelled.after, tokensAfter]
    trivial
  | case2 before first rest step inductionHypothesis =>
    rw [Labelled.after_cons]
    by_cases code : step = (⟨.code, [first]⟩, rest)
    · rw [code] at inductionHypothesis
      rw [show nextToken before first rest = (⟨.code, [first]⟩, rest) from code]
      exact ⟨fun _ _ => rfl, inductionHypothesis⟩
    · -- The token is a literal or a comment, so all its characters are dark; only the first one
      -- has code before it, and that one is remarkable.
      obtain ⟨tail, starts⟩ := nextToken_text before first rest
      have follows : tail ++ step.2 = rest := by
        have whole := nextToken_append before first rest
        rw [starts] at whole
        exact (List.cons.inj whole).2
      have label : (step.1.kind == TokenKind.code) = false := by
        rcases nextToken_cases before first rest with ⟨comment, _⟩ | same | literal
        · simp [step, comment]
        · exact absurd same code
        · rcases literal with kind | kind | kind <;> simp [step, kind]
      rw [show (nextToken before first rest).1.kind = step.1.kind from rfl, label, starts]
      refine ⟨fun _ unremarkable => absurd (nextToken_of_unremarkable ?_) code,
        (starts ▸ inductionHypothesis).literal tail⟩
      have next : Labelled.text (tail.map (·, false) ++
          Labelled.after ((first :: tail).reverse ++ before) step.2) = rest := by
        rw [Labelled.text_append, Labelled.text_after, ← follows]
        simp [Labelled.text, Function.comp_def]
      rwa [← next]

/-! ### Trimming and joining keep the labels right -/

theorem isUnremarkable_of_none {character : Char} (alone : isUnremarkable character none = true)
    (next : Option Char) : isUnremarkable character next = true := by
  simp_all [isUnremarkable]

theorem isUnremarkable_of_isBlank {character : Char} (blank : Text.isBlank character = true)
    (next : Option Char) : isUnremarkable character next = true := by
  refine isUnremarkable_of_none ?_ next
  have other (mark : Char) (filled : Text.isBlank mark = false) : character ≠ mark := by
    rintro rfl
    exact absurd blank (by simp [filled])
  simp [isUnremarkable, other '/' rfl, other '"' rfl, other '\'' rfl, other 'r' rfl]

theorem KeepsCode.append_left {wasCode : Bool} {first second : Labelled}
    (keeps : KeepsCode wasCode (first ++ second)) : KeepsCode wasCode first := by
  induction first generalizing wasCode with
  | nil => trivial
  | cons entry first inductionHypothesis =>
    refine ⟨fun code unremarkable => keeps.1 code ?_, inductionHypothesis keeps.2⟩
    cases first with
    | nil => exact isUnremarkable_of_none unremarkable _
    | cons next first => exact unremarkable

theorem KeepsCode.append_right {wasCode : Bool} {entry : Char × Bool} {first second : Labelled}
    (keeps : KeepsCode wasCode (first ++ entry :: second)) : KeepsCode entry.2 second := by
  induction first generalizing wasCode with
  | nil => exact keeps.2
  | cons entry first inductionHypothesis => exact inductionHypothesis keeps.2

theorem KeepsCode.dropBlanks {labelled : Labelled} (keeps : KeepsCode true labelled) :
    KeepsCode true (labelled.dropWhile fun entry => Text.isBlank entry.1) := by
  induction labelled with
  | nil => trivial
  | cons entry rest inductionHypothesis =>
    rw [List.dropWhile_cons]
    split
    · rename_i blank
      refine inductionHypothesis ?_
      have code : entry.2 = true := keeps.1 rfl (isUnremarkable_of_isBlank blank _)
      rw [← code]
      exact keeps.2
    · exact keeps

theorem KeepsCode.trim {labelled : Labelled} (keeps : KeepsCode true labelled) :
    KeepsCode true labelled.trim := by
  obtain ⟨blanks, whole⟩ := List.rdropWhile_prefix (fun entry : Char × Bool => Text.isBlank entry.1)
    (labelled.dropWhile fun entry => Text.isBlank entry.1)
  have untrimmed : KeepsCode true (labelled.trim ++ blanks) := by
    rw [Labelled.trim, whole]
    exact keeps.dropBlanks
  exact untrimmed.append_left

/-- A blank that is code may be put between two texts. -/
theorem KeepsCode.append_blank {wasCode : Bool} {first second : Labelled}
    (left : KeepsCode wasCode first) (right : KeepsCode true second) :
    KeepsCode wasCode (first ++ (' ', true) :: second) := by
  induction first generalizing wasCode with
  | nil => exact ⟨fun _ _ => rfl, right⟩
  | cons entry first inductionHypothesis =>
    refine ⟨fun code unremarkable => left.1 code ?_, inductionHypothesis left.2⟩
    cases first with
    | nil =>
      -- An `r` before a blank counts as remarkable, so the blank does not matter here.
      revert unremarkable
      simp [isUnremarkable, Labelled.text]
    | cons next first => exact unremarkable

theorem keepsCode_join {pieces : List Labelled} (all : ∀ piece ∈ pieces, KeepsCode true piece) :
    KeepsCode true (.join pieces) := by
  have trimmed : ∀ piece ∈ (pieces.map Labelled.trim).filter (!·.isEmpty),
      KeepsCode true piece := by
    intro piece member
    obtain ⟨whole, within, rfl⟩ := List.mem_map.mp (List.mem_filter.mp member).1
    exact (all whole within).trim
  rw [Labelled.join]
  generalize (pieces.map Labelled.trim).filter (!·.isEmpty) = found at trimmed
  induction found with
  | nil => trivial
  | cons piece rest inductionHypothesis =>
    have later := inductionHypothesis fun piece member => trimmed piece (.tail _ member)
    cases rest with
    | nil => simpa [List.intercalate] using trimmed piece (.head _)
    | cons next rest =>
      rw [List.intercalate_cons_cons, List.append_assoc]
      exact (trimmed piece (.head _)).append_blank later

theorem keepsCode_labelledSignature (lines : List Line) (start : Nat) :
    KeepsCode true (labelledSignature lines start) := by
  refine keepsCode_join fun piece member => ?_
  obtain ⟨line, _, rfl⟩ := List.mem_map.mp member
  exact keepsCode_after [] line

/-! ### The markers of the own return type -/

/-- A plain text after code is code from end to end. -/
theorem labelled_of_plain {labelled : Labelled} {plain : Line} (keeps : KeepsCode true labelled)
    (unremarkable : isPlainText plain = true) (begins : plain <+: labelled.text) :
    plain.map (·, true) <+: labelled := by
  induction plain generalizing labelled with
  | nil => exact List.nil_prefix
  | cons character plain inductionHypothesis =>
    cases labelled with
    | nil => exact absurd begins (by simp [Labelled.text])
    | cons entry rest =>
      obtain ⟨same, continues⟩ := List.cons_prefix_cons.mp begins
      simp only [isPlainText, Bool.and_eq_true] at unremarkable
      have next : isUnremarkable entry.1 (Labelled.text rest).head? = true := by
        cases plain with
        | nil =>
          rw [← same]
          exact isUnremarkable_of_none unremarkable.1 _
        | cons next plain =>
          obtain ⟨after, whole⟩ := continues
          have head : (Labelled.text rest).head? = some next := by
            rw [show Labelled.text rest = _ from whole.symm]
            rfl
          rw [head, ← same]
          exact unremarkable.1
      have code : entry.2 = true := keeps.1 rfl next
      have later := keeps.2
      rw [code] at later
      refine List.cons_prefix_cons.mpr ⟨Prod.ext same code.symm, ?_⟩
      exact inductionHypothesis later unremarkable.2 continues

theorem prefix_of_ownArrow? {code : Line} {arrow : Nat} (own : ownArrow? code = some arrow) :
    ['-', '>'] <+: code.drop arrow := by
  have within : Text.upTo '\x7b' code <+: code := List.takeWhile_prefix _
  simp only [ownArrow?, Option.bind_eq_bind, Option.bind_eq_some_iff] at own
  generalize Text.upTo '\x7b' code = header at own within
  obtain ⟨name, _, opening, _, past, _, own⟩ := own
  split at own
  · rename_i begins
    cases own
    obtain ⟨body, rfl⟩ := within
    rw [List.drop_append]
    exact (List.isPrefixOf_iff_prefix.mp begins).trans (List.prefix_append _ _)
  · cases own

/-- A marker whose arrow is code is code from end to end. -/
theorem labelled_of_arrow {wasCode : Bool} {labelled : Labelled} {arrow : Nat} {plain : Line}
    (keeps : KeepsCode wasCode labelled) (unremarkable : isPlainText plain = true)
    (code : ['-', '>'] <+: labelled.code.drop arrow)
    (begins : '-' :: '>' :: plain <+: labelled.text.drop arrow) :
    ('-' :: '>' :: plain).map (·, true) <+: labelled.drop arrow := by
  have whole := List.take_append_drop arrow labelled
  rw [Labelled.code, ← List.map_drop] at code
  rw [Labelled.text, ← List.map_drop] at begins
  obtain ⟨dash, tip, rest, left⟩ : ∃ dash tip rest, labelled.drop arrow = dash :: tip :: rest := by
    match left : labelled.drop arrow with
    | [] | [_] => simp [left] at code
    | dash :: tip :: rest => exact ⟨dash, tip, rest, rfl⟩
  rw [left] at whole code begins ⊢
  simp only [List.map_cons, List.cons_prefix_cons, List.nil_prefix, and_true] at code begins ⊢
  obtain ⟨dashCode, tipCode⟩ := code
  obtain ⟨sameDash, sameTip, continues⟩ := begins
  have isCode {character : Char} {entry : Char × Bool} (filled : character ≠ ' ')
      (label : character = if entry.2 then entry.1 else ' ') : entry.2 = true := by
    by_contra dark
    rw [if_neg dark] at label
    exact filled label
  have dashIsCode := isCode (by decide) dashCode
  have tipIsCode := isCode (by decide) tipCode
  have split : KeepsCode wasCode ((labelled.take arrow ++ [dash]) ++ tip :: rest) := by
    rwa [List.append_assoc, List.singleton_append, whole]
  have later : KeepsCode true rest := by
    rw [← tipIsCode]
    exact split.append_right
  exact ⟨Prod.ext sameDash dashIsCode.symm, Prod.ext sameTip tipIsCode.symm,
    labelled_of_plain later unremarkable continues⟩

/-- Whether a text is an arrow and a plain text after it. -/
def isReturnMarker : Line → Bool
  | '-' :: '>' :: plain => isPlainText plain
  | _ => false

theorem isReturnMarker_of_mem {marker : Line} (member : marker ∈ optionMarker :: resultMarkers) :
    isReturnMarker marker = true := by
  revert marker
  decide

/-- A marker in a signature stands at the arrow of the return type, in code, or elsewhere. -/
theorem includes_signature_iff {markers : List Line}
    (all : ∀ marker ∈ markers, isReturnMarker marker = true) (lines : List Line) (start : Nat) :
    markers.any (Text.includes · (signatureAt lines start).text) = true ↔
      marksOwnReturn markers lines start = true ∨ marksElsewhere markers lines start = true := by
  rw [← text_labelledSignature]
  simp only [List.any_eq_true, marksOwnReturn, marksElsewhere, Option.any_eq_true,
    List.isPrefixOf_iff_prefix, bne_iff_ne]
  constructor
  · rintro ⟨marker, member, included⟩
    obtain ⟨offset, occurs⟩ := List.exists_mem_of_ne_nil _
      (Text.includes_iff_occurrences_ne_nil.mp included)
    by_cases own : ownArrow? (labelledSignature lines start).code = some offset
    · refine Or.inl ⟨offset, own, marker, member, ?_⟩
      have begins := (Text.mem_occurrences.mp occurs).2
      have shape := all marker member
      unfold isReturnMarker at shape
      split at shape
      · exact labelled_of_arrow (keepsCode_labelledSignature lines start) shape
          (prefix_of_ownArrow? own) begins
      · cases shape
    · exact Or.inr ⟨marker, member, offset, occurs, own⟩
  · rintro (⟨arrow, _, marker, member, begins⟩ | ⟨marker, member, offset, occurs, _⟩)
    · refine ⟨marker, member, Text.includes_iff_isInfix.mpr ?_⟩
      have within : marker <+: (labelledSignature lines start).text.drop arrow := by
        simpa [Labelled.text, Function.comp_def] using begins.map Prod.fst
      exact within.isInfix.trans (List.drop_suffix arrow _).isInfix
    · refine ⟨marker, member, Text.includes_iff_occurrences_ne_nil.mpr ?_⟩
      exact List.ne_nil_of_mem occurs

end Rust

namespace Fix

open Rust (functionAt? resultMarkers optionMarker marksOwnReturn marksElsewhere)

variable {lines : List Line} {start : Nat} {function : Rust.FunctionSpan}

theorem returnsResult_iff (located : functionAt? lines start = some function) :
    function.returnsResult = true ↔ marksOwnReturn resultMarkers lines start = true ∨
      marksElsewhere resultMarkers lines start = true := by
  rw [← Rust.includes_signature_iff fun marker member =>
    Rust.isReturnMarker_of_mem (List.mem_cons_of_mem _ member)]
  obtain ⟨_, located⟩ := Option.ite_none_right_eq_some.mp located
  obtain ⟨name, _, rfl⟩ := Option.map_eq_some_iff.mp located
  rfl

theorem returnsOption_iff (located : functionAt? lines start = some function) :
    function.returnsOption = true ↔ marksOwnReturn [optionMarker] lines start = true ∨
      marksElsewhere [optionMarker] lines start = true := by
  rw [← Rust.includes_signature_iff fun marker member =>
    Rust.isReturnMarker_of_mem (List.mem_cons.mpr (Or.inl (List.mem_singleton.mp member)))]
  obtain ⟨_, located⟩ := Option.ite_none_right_eq_some.mp located
  obtain ⟨name, _, rfl⟩ := Option.map_eq_some_iff.mp located
  simp [Rust.returnsOption]

/-- A call is only rewritten in a function that seems to return a result or an option. -/
theorem canPropagate_of_isEditable {violation : Violation} {index : Nat}
    (call : violation.kind = .unwrapInProduction) (place : violation.line = (index : Int) + 1)
    (editable : isEditable lines violation = true) :
    ∃ start function, enclosingFunction? lines index = some function ∧
      functionAt? lines start = some function ∧ function.canPropagate = true := by
  obtain ⟨index', line, place', found⟩ := line_of_isEditable editable
  obtain rfl : index' = index := by omega
  rw [isEditable, plan_of_line place found, call] at editable
  simp only at editable
  split at editable
  · rename_i propagates
    obtain ⟨function, enclosing, propagates⟩ := (Option.any_eq_true _ _).mp propagates
    rcases enclosingFunction?_cases lines index' with ⟨start, _, located⟩ | ⟨_, none⟩
    · exact ⟨start, function, enclosing, located.symm.trans enclosing, propagates⟩
    · cases none.symm.trans enclosing
  · cases editable

/-- A function counts as one that returns a result, or an option, exactly if a marker of it stands
in the signature: at the arrow of the return type, and then in code, or elsewhere. Only where such a
marker stands is a call rewritten. -/
theorem signatureMarkers_iff (lines : List Line) :
    (∀ start function, functionAt? lines start = some function →
      (function.returnsResult = true ↔ marksOwnReturn resultMarkers lines start = true ∨
        marksElsewhere resultMarkers lines start = true) ∧
      (function.returnsOption = true ↔ marksOwnReturn [optionMarker] lines start = true ∨
        marksElsewhere [optionMarker] lines start = true)) ∧
    ∀ violation (index : Nat), violation.kind = .unwrapInProduction →
      violation.line = (index : Int) + 1 → (plan lines violation).isApplicable = true →
        ∃ start function, enclosingFunction? lines index = some function ∧
          functionAt? lines start = some function ∧
          ∃ markers ∈ [resultMarkers, [optionMarker]],
            marksOwnReturn markers lines start = true ∨
              marksElsewhere markers lines start = true := by
  refine ⟨fun start function located => ⟨returnsResult_iff located, returnsOption_iff located⟩, ?_⟩
  intro violation index call place editable
  obtain ⟨start, function, enclosing, located, propagates⟩ :=
    canPropagate_of_isEditable call place editable
  refine ⟨start, function, enclosing, located, ?_⟩
  rcases (Bool.or_eq_true _ _).mp propagates with result | option
  · exact ⟨_, .head _, (returnsResult_iff located).mp result⟩
  · exact ⟨_, .tail _ (.head _), (returnsOption_iff located).mp option⟩

/-- A function that returns an option, with a call that can be rewritten. -/
def optionLines : List Line :=
  ["fn head(items: &[u8]) -> Option<u8> \x7b", "    Some(*items.first().unwrap())", "\x7d"].map
    String.toList

theorem signatureMarkers_iff_optionLines :
    (functionAt? optionLines 0 = some ⟨"head", 1, 3, false, true⟩ ∧
      (true = true ↔ marksOwnReturn [optionMarker] optionLines 0 = true ∨
        marksElsewhere [optionMarker] optionLines 0 = true)) ∧
    (plan optionLines ⟨.unwrapInProduction, "src/lib.rs", 2, "", .error⟩).isApplicable = true ∧
    ∃ start function, enclosingFunction? optionLines 1 = some function ∧
      functionAt? optionLines start = some function ∧
      ∃ markers ∈ [resultMarkers, [optionMarker]],
        marksOwnReturn markers optionLines start = true ∨
          marksElsewhere markers optionLines start = true :=
  have located : functionAt? optionLines 0 = some ⟨"head", 1, 3, false, true⟩ := by decide +kernel
  have editable : (plan optionLines
      ⟨.unwrapInProduction, "src/lib.rs", 2, "", .error⟩).isApplicable = true := by
    decide +kernel
  ⟨⟨located, ((signatureMarkers_iff optionLines).1 0 _ located).2⟩, editable,
    (signatureMarkers_iff optionLines).2 _ 1 rfl rfl editable⟩

/-- A function with a parameter that returns an option, and a call of it. -/
def callbackLines : List Line :=
  ["fn apply(f: fn(u8) -> Option<u8>) -> u8 \x7b", "    f(1).unwrap()", "\x7d"].map String.toList

/-- It counts as one that returns an option itself, and its call is rewritten. -/
theorem not_marksOwnReturn_callbackLines :
    ¬ (∀ start function, functionAt? callbackLines start = some function →
      function.returnsOption = true →
        ∃ arrow, Rust.ownArrow? (Rust.labelledSignature callbackLines start).code = some arrow ∧
          optionMarker <+: (Rust.labelledSignature callbackLines start).code.drop arrow) ∧
      plan callbackLines ⟨.unwrapInProduction, "src/lib.rs", 2, "", .error⟩ =
        .replace "    f(1)?".toList "Replaced 1 unwrap/expect call with ?" := by
  refine ⟨fun described => ?_, by decide +kernel⟩
  obtain ⟨arrow, own, marked⟩ := described 0 ⟨"apply", 1, 3, false, true⟩ (by decide +kernel) rfl
  have place : Rust.ownArrow? (Rust.labelledSignature callbackLines 0).code = some 34 := by
    decide +kernel
  obtain rfl : 34 = arrow := Option.some.inj (place.symm.trans own)
  exact absurd (List.isPrefixOf_iff_prefix.mpr marked) (by decide +kernel)

end Fix

end CrateAudit
