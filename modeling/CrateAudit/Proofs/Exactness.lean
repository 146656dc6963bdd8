/-
This file says exactly when a repair leaves the lines that it does not list as they are.
A file is read as a text whose line breaks are all line feeds, and its lines are joined
again by line feeds, with one at the end if the text had one. So the lines keep their
bytes just where this gives them back: where each text is UTF-8 and each line that is
left was ended by a line feed.
-/

import CrateAudit.Proofs.Outcomes
import CrateAudit.Proofs.ReadSettings
import CrateAudit.Proofs.RepairedText
import CrateAudit.Proofs.RawLines

namespace CrateAudit

namespace Text

/-! ### Lines that are put together -/

/-- Whether lines can be the lines of a file: no text holds a break, and only the last line may be
without a terminator. -/
structure WellCut (lines : List RawLine) : Prop where
  texts : ∀ line ∈ lines, HoldsNoBreak line.text
  inner : ∀ line ∈ lines.dropLast, line.terminator ∈ terminators
  last : ∀ line ∈ lines, line.terminator = [] ∨ line.terminator ∈ terminators

/-- Whether reading lines and joining them gives their bytes back; `closed` when a line feed is
put at the end. -/
structure RejoinsExactly (closed : Bool) (lines : List RawLine) : Prop where
  texts : ∀ line ∈ lines, (decodeStrict? line.text).isSome = true
  inner : ∀ line ∈ lines.dropLast, line.terminator = [0x0A]
  last : ∀ line, lines.getLast? = some line →
    line.terminator = if closed then [0x0A] else []

theorem wellCut_cons {line next : RawLine} {rest : List RawLine} :
    WellCut (line :: next :: rest) ↔ HoldsNoBreak line.text ∧ line.terminator ∈ terminators ∧
      WellCut (next :: rest) := by
  constructor
  · rintro ⟨texts, inner, last⟩
    refine ⟨texts line List.mem_cons_self, inner line List.mem_cons_self,
      fun other member => texts other (List.mem_cons_of_mem _ member),
      fun other member => inner other (List.mem_cons_of_mem _ member),
      fun other member => last other (List.mem_cons_of_mem _ member)⟩
  · rintro ⟨text, terminator, texts, inner, last⟩
    refine ⟨?_, ?_, ?_⟩ <;> intro other member <;> rcases List.mem_cons.mp member with rfl | later
    · exact text
    · exact texts other later
    · exact terminator
    · exact inner other later
    · exact Or.inr terminator
    · exact last other later

theorem rejoinsExactly_cons {closed : Bool} {line next : RawLine} {rest : List RawLine} :
    RejoinsExactly closed (line :: next :: rest) ↔
      (decodeStrict? line.text).isSome = true ∧ line.terminator = [0x0A] ∧
        RejoinsExactly closed (next :: rest) := by
  constructor
  · rintro ⟨texts, inner, last⟩
    refine ⟨texts line List.mem_cons_self, inner line List.mem_cons_self,
      fun other member => texts other (List.mem_cons_of_mem _ member),
      fun other member => inner other (List.mem_cons_of_mem _ member), fun other final => ?_⟩
    exact last other (by rw [List.getLast?_cons_cons, final])
  · rintro ⟨text, terminator, texts, inner, last⟩
    refine ⟨?_, ?_, fun other final => ?_⟩
    · intro other member
      rcases List.mem_cons.mp member with rfl | later
      · exact text
      · exact texts other later
    · intro other member
      rcases List.mem_cons.mp member with rfl | later
      · exact terminator
      · exact inner other later
    · rw [List.getLast?_cons_cons] at final
      exact last other final

/-- Where a line ends is seen whatever follows it; only a carriage return may take a line feed
along. -/
theorem exists_rawLines_append {text terminator : Bytes} (plain : HoldsNoBreak text)
    (member : terminator ∈ terminators) (rest : Bytes) :
    ∃ found tail, rawLines (text ++ (terminator ++ rest)) = ⟨text, found⟩ :: tail ∧
      (found = terminator ∨ (terminator = [0x0D] ∧ found = [0x0D, 0x0A])) := by
  by_cases whole : IsWhole terminator rest
  · exact ⟨terminator, rawLines rest, rawLines_append_append plain member whole, Or.inl rfl⟩
  · obtain ⟨alone, feed⟩ : terminator = [0x0D] ∧ rest.head? = some 0x0A := by
      rw [IsWhole, Classical.not_imp, Decidable.not_not] at whole
      exact whole
    obtain ⟨later, shape⟩ := List.head?_eq_some_iff.mp feed
    have pair : rawLines (text ++ ([0x0D, 0x0A] ++ later)) =
        ⟨text, [0x0D, 0x0A]⟩ :: rawLines later :=
      rawLines_append_append plain (by decide) (by rintro ⟨⟩)
    rw [alone, shape]
    exact ⟨[0x0D, 0x0A], rawLines later, pair, Or.inr ⟨rfl, rfl⟩⟩

theorem holdsNoBreak_encode_decode {text : Bytes} (plain : HoldsNoBreak text) :
    HoldsNoBreak (encode (decode text)) :=
  holdsNoBreak_encode (isPlain_decode plain)

theorem encode_append (first second : List Char) :
    encode (first ++ second) = encode first ++ encode second :=
  List.flatMap_append

theorem encode_feed : encode ['\n'] = [0x0A] := by decide

/-- The last line is given back exactly if it is UTF-8 and ends the way the joined text does. -/
theorem last_bytes_eq_iff {closed : Bool} {line : RawLine} (plain : HoldsNoBreak line.text)
    (ends : line.terminator = [] ∨ line.terminator ∈ terminators) :
    line.bytes = encode (decode line.text ++ if closed then ['\n'] else []) ↔
      (decodeStrict? line.text).isSome = true ∧
        line.terminator = if closed then [0x0A] else [] := by
  have plain' := holdsNoBreak_encode_decode plain
  rw [isSome_decodeStrict?_iff, RawLine.bytes, encode_append]
  constructor
  · intro same
    have cut := congrArg rawLines same
    have feed : ([0x0A] : Bytes) ∈ terminators := by decide
    have whole (terminator : Bytes) : IsWhole terminator [] := by
      intro _ impossible
      cases impossible
    cases closed with
    | false =>
      simp only [Bool.false_eq_true, if_false] at same cut ⊢
      rw [show encode [] = [] from rfl, List.append_nil] at same cut
      rcases ends with open_ | member
      · rw [open_, List.append_nil] at same
        exact ⟨same.symm, open_⟩
      · have own := rawLines_append_append plain member (whole line.terminator)
        rw [List.append_nil, cut, rawLines_of_holdsNoBreak plain'] at own
        split at own
        · cases own
        · have none := congrArg RawLine.terminator (List.cons.inj own).1
          exact absurd none.symm (startsInside_of_mem_terminators member).1
    | true =>
      simp only [if_true] at same cut ⊢
      rw [encode_feed] at same cut
      have joined := rawLines_append_append plain' feed (whole [0x0A])
      rw [List.append_nil] at joined
      rcases ends with open_ | member
      · rw [open_, List.append_nil, joined, rawLines_of_holdsNoBreak plain] at cut
        split at cut
        · cases cut
        · have none := congrArg RawLine.terminator (List.cons.inj cut).1
          cases none
      · have own := rawLines_append_append plain member (whole line.terminator)
        rw [List.append_nil, cut, joined] at own
        have parts := RawLine.mk.inj (List.cons.inj own).1
        exact ⟨parts.1, parts.2.symm⟩
  · rintro ⟨text, terminator⟩
    rw [text, terminator]
    cases closed <;> rfl

/-- Lines that are read and joined give their bytes back exactly if each is UTF-8 and each ends
the way the joined text has it. -/
theorem flatMap_bytes_eq_iff {closed : Bool} {lines : List RawLine} (cut : WellCut lines) :
    lines.flatMap RawLine.bytes =
        encode (rejoin closed (lines.map fun line => decode line.text)) ↔
      RejoinsExactly closed lines := by
  induction lines with
  | nil =>
    refine ⟨fun _ => ⟨?_, ?_, ?_⟩, fun _ => rfl⟩ <;> simp
  | cons line rest inductionHypothesis =>
    cases rest with
    | nil =>
      rw [List.flatMap_cons, List.flatMap_nil, List.append_nil, List.map_cons, List.map_nil,
        rejoin, last_bytes_eq_iff (cut.texts line List.mem_cons_self)
          (cut.last line List.mem_cons_self)]
      constructor
      · rintro ⟨text, terminator⟩
        refine ⟨?_, ?_, ?_⟩ <;> simp [text, terminator]
      · rintro ⟨texts, _, last⟩
        exact ⟨texts line List.mem_cons_self, last line rfl⟩
    | cons next others =>
      obtain ⟨plain, member, cutRest⟩ := wellCut_cons.mp cut
      rw [rejoinsExactly_cons, ← inductionHypothesis cutRest, isSome_decodeStrict?_iff]
      simp only [List.flatMap_cons, List.map_cons, rejoin]
      rw [show ∀ tail : List Char, '\n' :: tail = ['\n'] ++ tail from fun _ => rfl,
        encode_append, encode_append, encode_feed, RawLine.bytes, List.append_assoc]
      constructor
      · intro same
        obtain ⟨found, _, own, shape⟩ := exists_rawLines_append plain member
          (next.bytes ++ others.flatMap RawLine.bytes)
        obtain ⟨found', _, joined, shape'⟩ := exists_rawLines_append
          (holdsNoBreak_encode_decode plain) (show [0x0A] ∈ terminators by decide)
          (encode (rejoin closed (decode next.text ::
            others.map fun line => decode line.text)))
        rw [same, joined] at own
        have parts := RawLine.mk.inj (List.cons.inj own).1
        have feed : line.terminator = [0x0A] := by
          have isFeed : found' = [0x0A] := by
            rcases shape' with same | ⟨impossible, _⟩
            · exact same
            · exact absurd impossible (by decide)
          rw [parts.2] at isFeed
          rcases shape with same | ⟨_, pair⟩
          · rw [← same, isFeed]
          · rw [pair] at isFeed
            exact absurd isFeed (by decide)
        refine ⟨parts.1, feed, ?_⟩
        rw [parts.1, feed] at same
        exact List.append_cancel_left (List.append_cancel_left same)
      · rintro ⟨text, terminator, rest⟩
        rw [text, terminator, rest]

/-! ### Lines of a file -/

theorem WellCut.cons {line : RawLine} {rest : List RawLine} (plain : HoldsNoBreak line.text)
    (member : line.terminator ∈ terminators) (cut : WellCut rest) : WellCut (line :: rest) := by
  cases rest with
  | nil => refine ⟨?_, ?_, ?_⟩ <;> simp [plain, member]
  | cons next others => exact wellCut_cons.mpr ⟨plain, member, cut⟩

theorem wellCut_rawLines (bytes : Bytes) : WellCut (rawLines bytes) := by
  induction bytes using cutInduction with
  | whole text plain =>
    rw [rawLines_of_holdsNoBreak plain]
    split <;> refine ⟨?_, ?_, ?_⟩ <;> simp [plain]
  | cut text terminator rest plain member whole inductionHypothesis =>
    rw [rawLines_append_append plain member whole]
    exact inductionHypothesis.cons plain member

/-- The last character that is read, if it is one of a single byte, is the last byte. -/
theorem getLast?_decode {character : Char} {byte : UInt8} {bytes : Bytes}
    (single : encodeCharacter character = [byte]) (lead : isContinuation byte = false)
    (proper : character ≠ replacement) :
    (decode bytes).getLast? = some character ↔ bytes.getLast? = some byte := by
  rw [decode, List.getLast?_map, Option.map_eq_some_iff]
  constructor
  · rintro ⟨piece, last, same⟩
    obtain ⟨first, split⟩ := List.getLast?_eq_some_iff.mp last
    cases piece with
    | none => exact absurd same.symm proper
    | some own =>
      cases same
      obtain ⟨before, after, rfl, read⟩ := exists_append_of_pieces split
      obtain ⟨rest, rfl, none⟩ := eq_encodeCharacter_append read
      have empty : rest = [] := decode_eq_nil.mp (by rw [decode, none]; rfl)
      rw [Option.getD_some] at single
      rw [empty, single]
      simp
  · intro last
    obtain ⟨init, rfl⟩ := List.getLast?_eq_some_iff.mp last
    refine ⟨some character, ?_, rfl⟩
    rw [pieces_append _ _ (by rw [startsInside_cons, lead]), ← single,
      ← List.append_nil (encodeCharacter character), pieces_encodeCharacter_append, pieces_nil]
    simp

/-- Whether the last line of a file ends in a line feed or a carriage return. -/
def endsInFeed (bytes : Bytes) : Bool :=
  bytes.getLast? == some 0x0A || bytes.getLast? == some 0x0D

/-- The text of a file ends in a line feed where the file ends in one or in a carriage return. -/
theorem getLast?_unifyLineFeeds_decode (bytes : Bytes) :
    ((unifyLineFeeds (decode bytes)).getLast? == some '\n') = endsInFeed bytes := by
  have feed : (decode bytes).getLast? = some '\n' ↔ bytes.getLast? = some 0x0A :=
    getLast?_decode (by decide) (by decide) (by decide)
  have return_ : (decode bytes).getLast? = some '\r' ↔ bytes.getLast? = some 0x0D :=
    getLast?_decode (by decide) (by decide) (by decide)
  rw [Bool.eq_iff_iff, beq_iff_eq, getLast?_unifyLineFeeds, endsInFeed, Bool.or_eq_true,
    beq_iff_eq, beq_iff_eq, feed, return_]

end Text

namespace Fix

/-! ### Edited lines of a file -/

/-- The lines that a file should have after edits: each listed one replaced or dropped, with the
terminator it had, and every other one as it was. -/
def expectedLines (edits : List Edit) (before : Bytes) : List RawLine :=
  editedFrom (fun line text => ⟨Text.encode text, line.terminator⟩) edits 1
    (Text.rawLines before)

/-- Whether a file differs from what it was only in the lines that edits list. -/
def KeepsOtherLines (edits : List Edit) (before after : Bytes) : Prop :=
  after = (expectedLines edits before).flatMap RawLine.bytes

instance (edits : List Edit) (before after : Bytes) :
    Decidable (KeepsOtherLines edits before after) :=
  inferInstanceAs (Decidable (_ = _))

/-- An expected line is one of the lines that there were, or a new text with the terminator of
one. -/
theorem of_mem_expectedLines {edits : List Edit} {lines : List RawLine} {line : RawLine}
    (member : line ∈ editedFrom (fun line text => RawLine.mk (Text.encode text) line.terminator)
      edits 1 lines) :
    ∃ own ∈ lines, line = own ∨ ∃ edit ∈ edits, ∃ text, edit.replacement = some text ∧
      line = ⟨Text.encode text, own.terminator⟩ := by
  obtain ⟨index, own, stands, ⟨_, same⟩ | ⟨edit, text, found, replaced, put⟩⟩ :=
    mem_editedFrom_iff.mp member
  · exact ⟨own, List.mem_of_getElem? stands, Or.inl same⟩
  · exact ⟨own, List.mem_of_getElem? stands,
      Or.inr ⟨edit, List.mem_of_find?_eq_some found, text, replaced, put⟩⟩

theorem wellCut_expectedLines {edits : List Edit} {before : Bytes}
    (plain : ∀ edit ∈ edits, ∀ text, edit.replacement = some text → Text.IsPlain text) :
    Text.WellCut (expectedLines edits before) := by
  have cut := Text.wellCut_rawLines before
  rw [expectedLines]
  generalize Text.rawLines before = lines at cut
  refine ⟨?_, ?_, ?_⟩
  · intro line member
    obtain ⟨own, inside, rfl | ⟨edit, listed, text, replaced, rfl⟩⟩ := of_mem_expectedLines member
    · exact cut.texts line inside
    · exact Text.holdsNoBreak_encode (plain edit listed text replaced)
  · intro line member
    -- the last line left comes from before the last one, or is it: all others are earlier
    have early : line ∈ editedFrom (fun line text => RawLine.mk (Text.encode text)
        line.terminator) edits 1 lines.dropLast := by
      by_cases none : lines = []
      · rw [none] at member
        cases member
      rw [← List.dropLast_concat_getLast none, editedFrom_append] at member
      generalize lines.getLast none = final at member
      have short : editedFrom (fun line text => RawLine.mk (Text.encode text) line.terminator)
          edits (1 + lines.dropLast.length) [final] = [] ∨
          ∃ left, editedFrom (fun line text => RawLine.mk (Text.encode text) line.terminator)
            edits (1 + lines.dropLast.length) [final] = [left] := by
        rw [editedFrom]
        split
        · exact Or.inr ⟨_, rfl⟩
        · split
          · exact Or.inl rfl
          · exact Or.inr ⟨_, rfl⟩
      rcases short with gone | ⟨left, one⟩
      · rw [gone, List.append_nil] at member
        exact (List.dropLast_sublist _).subset member
      · rw [one, List.dropLast_concat] at member
        exact member
    obtain ⟨own, inside, rfl | ⟨edit, listed, text, replaced, rfl⟩⟩ := of_mem_expectedLines early
    · exact cut.inner line inside
    · exact cut.inner own inside
  · intro line member
    obtain ⟨own, inside, rfl | ⟨edit, listed, text, replaced, rfl⟩⟩ := of_mem_expectedLines member
    · exact cut.last line inside
    · exact cut.last own inside

end Fix

namespace Project

variable {settings : Settings} {disk : Disk} {target : String} {options : RepairOptions}

/-- What is written for a file: its lines after the edits, read and joined again. -/
theorem encode_repairedText {root : Path} {place : List String} {bytes : Bytes}
    {source : Source} (audited : IsAudited disk root place bytes source)
    {violations : List Violation} {edits : List Fix.Edit}
    (planned : edits = (Fix.planFile source violations).edits) :
    Text.encode (repairedText source edits) =
      Text.encode (Text.rejoin (Text.endsInFeed bytes)
        ((Fix.expectedLines edits bytes).map fun line => Text.decode line.text)) := by
  have read : (Fix.expectedLines edits bytes).map (fun line => Text.decode line.text) =
      Fix.editedLines edits (Text.lines (Text.unifyLineFeeds (Text.decode bytes))) := by
    have each : (Fix.expectedLines edits bytes).map (fun line => Text.decode line.text) =
        Fix.editedFrom (fun _ text => text) edits 1
          ((Text.rawLines bytes).map fun line => Text.decode line.text) :=
      Fix.map_editedFrom (fun _ text => Text.decode_encode text) edits 1 _
    rw [each, Text.map_decode_rawLines, Fix.editedLines, Text.lines_unifyLineFeeds]
  rw [read, planned, audited.source, repairedText_eq _ (Text.return_not_mem_unifyLineFeeds _),
    Text.getLast?_unifyLineFeeds_decode]

/-- After a run that writes, a file without a reported edit has the bytes that it had. A file with
reported edits differs only in the lines that they list, these with their terminators, exactly if
reading and joining its lines gives their bytes back. -/
theorem keepsOtherLines_iff (sound : disk.isSound = true) (wet : options.dryRun = false)
    {place : List String} {before : Bytes}
    (stands : disk.tree.get? place = some (.file before)) :
    let root := disk.resolve (.ofText target)
    let run := repair settings disk target options
    let edits := run.repair.edits.filter (·.file == shownName root place)
    ∃ after, run.disk.tree.get? place = some (.file after) ∧ (edits = [] → after = before) ∧
      (Fix.KeepsOtherLines edits before after ↔
        edits = [] ∨
          Text.RejoinsExactly (Text.endsInFeed before) (Fix.expectedLines edits before)) := by
  intro root run edits
  rcases file_cases settings target sound wet (Tree.view_eq_file.mpr stands) with
    ⟨none, same⟩ | ⟨some, source, audited, planned, written⟩
  · refine ⟨before, Tree.view_eq_file.mp same, fun _ => rfl, fun _ => Or.inl none, fun _ => ?_⟩
    rw [Fix.KeepsOtherLines, Fix.expectedLines]
    show before = (Fix.editedFrom _ edits 1 _).flatMap RawLine.bytes
    rw [show edits = [] from none, Fix.editedFrom_nil, Text.flatMap_rawLines]
  · refine ⟨_, Tree.view_eq_file.mp written, fun none => absurd none some, ?_⟩
    have cut : Text.WellCut (Fix.expectedLines edits before) := by
      refine Fix.wellCut_expectedLines fun edit member text replaced => ?_
      rw [show edits = _ from planned, audited.source] at member
      exact Fix.isPlain_replacement member replaced
    rw [Fix.KeepsOtherLines, encode_repairedText audited planned, eq_comm,
      Text.flatMap_bytes_eq_iff cut]
    exact ⟨Or.inr, fun holds => holds.resolve_left some⟩

/-- A library whose lines end in carriage returns and line feeds, with one call to replace. -/
def pairedText : String :=
  "fn f(a: Option<u8>) -> Option<u8> \x7b\r\n    let b = a.unwrap();\r\n    Some(b)\r\n\x7d\r\n"

theorem keepsOtherLines_iff_pairedText :
    let disk := Disk.withLibrary pairedText
    let run := repair .standard disk "." ⟨[], [], false⟩
    let edits := run.repair.edits.filter
      (·.file == shownName (disk.resolve (.ofText ".")) libraryPlace)
    let before := Text.encode pairedText.toList
    disk.isSound = true ∧ disk.tree.get? libraryPlace = some (.file before) ∧
      ∃ after, run.disk.tree.get? libraryPlace = some (.file after) ∧
        (edits = [] → after = before) ∧
        (Fix.KeepsOtherLines edits before after ↔
          edits = [] ∨
            Text.RejoinsExactly (Text.endsInFeed before) (Fix.expectedLines edits before)) := by
  intro disk run edits before
  have sound : disk.isSound = true := by decide
  have stands : disk.tree.get? libraryPlace = some (.file before) := rfl
  exact ⟨sound, stands, keepsOtherLines_iff sound rfl stands⟩

/-- In that library the lines that the one edit does not list lose their carriage returns. -/
theorem not_keepsOtherLines_pairedText :
    let run := repair .standard (.withLibrary pairedText) "." ⟨[], [], false⟩
    ∃ after, run.disk.tree.get? libraryPlace = some (.file after) ∧
      ¬ Fix.KeepsOtherLines (run.repair.edits.filter (·.file == "src/lib.rs"))
        (Text.encode pairedText.toList) after := by
  intro run
  let after := "fn f(a: Option<u8>) -> Option<u8> \x7b\n    let b = a?;\n    Some(b)\n\x7d\n"
  have written : run.disk.tree.view libraryPlace =
      some (some (Text.encode after.toList)) := by
    decide +kernel
  refine ⟨_, Tree.view_eq_file.mp written, ?_⟩
  decide +kernel

end Project

end CrateAudit
