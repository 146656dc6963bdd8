/-
This file says that no report loses a violation or repeats one. The tables of kinds and
of files count each violation once; the document in Markdown has one section for each
kind that appears, in which each violation of the kind has its line; and the document
in JSON has a record for each violation, in the same order.
-/

import CrateAudit.Proofs.FallibleSteps
import CrateAudit.Proofs.Tallies
import CrateAudit.Report.Document
import CrateAudit.Report.Markdown
import Mathlib.Data.List.Nodup

namespace CrateAudit

theorem Kind.tag_injective {first second : Kind} (same : first.tag = second.tag) :
    first = second := by
  have found := ofTag?_tag first
  rw [same, ofTag?_tag] at found
  exact (Option.some.inj found).symm

/-! ### Answers of the guidance -/

namespace Guidance

variable {guidance : Guidance}

/-- The guidance answers what the reports ask about a kind: what to do, how urgent it is, and what
the advice is, if there is any. -/
structure Answers (guidance : Guidance) (kind : Kind) : Prop where
  suggestion : (guidance.suggestion kind).isOk = true
  priority : (guidance.priority kind).isOk = true
  strategy : (guidance.entry kind >>= (guidance.usableText · "fix_strategy")).isOk = true
  sample : (guidance.entry kind >>= (guidance.usableText · "example_fix")).isOk = true

/-- Where there is a priority, there is an entry. -/
theorem Answers.exists_entry {kind : Kind} (answers : guidance.Answers kind) :
    ∃ fields, guidance.entry kind = .ok fields := by
  obtain ⟨priority, answer⟩ := exists_of_isOk answers.priority
  obtain ⟨fields, entry, _⟩ := bind_eq_ok_iff.mp answer
  exact ⟨fields, entry⟩

/-- A field that has a text has one, whatever stands in for it where it is missing. -/
theorem exists_fieldText {fields : Table} {name default : String}
    (answer : (guidance.fieldText fields name default).isOk = true) (other : String) :
    ∃ text, guidance.fieldText fields name other = .ok text := by
  rw [fieldText] at answer ⊢
  cases found : fields.lookup name with
  | none => exact ⟨other, rfl⟩
  | some value =>
    rw [found] at answer
    exact exists_of_isOk answer

/-- The keys that are ranked are keys of the registry. -/
theorem ranked_sublist {entries : List (Key × Value)} {ranks : List (Int × Key)}
    (answer : ranked entries = .ok ranks) :
    (ranks.map (·.2)).Sublist (entries.map (·.1)) := by
  induction entries generalizing ranks with
  | nil =>
    cases answer
    exact .slnil
  | cons entry rest inductionHypothesis =>
    obtain ⟨key, value⟩ := entry
    unfold ranked at answer
    split at answer
    · exact (inductionHypothesis answer).cons key
    · split at answer
      · obtain ⟨priority, _, answer⟩ := bind_eq_ok_iff.mp answer
        obtain ⟨others, later, answer⟩ := bind_eq_ok_iff.mp answer
        cases answer
        exact (inductionHypothesis later).cons_cons key
      · cases answer

/-- No key is ranked twice. -/
theorem nodup_priorityOrder (distinct : (guidance.entries.map (·.1)).Nodup) {keys : List Key}
    (answer : guidance.priorityOrder = .ok keys) : keys.Nodup := by
  obtain ⟨ranks, found, answer⟩ := bind_eq_ok_iff.mp answer
  split at answer
  · cases answer
    rw [((List.mergeSort_perm ranks rankAtMost).map (·.2)).nodup_iff]
    exact distinct.sublist (ranked_sublist found)
  · cases answer

end Guidance

namespace Report

variable {guidance : Guidance} {summary : Summary} {violations : List Violation}

/-! ### Tables -/

/-- The row has the priority that the guidance gives its kind. -/
def KindRow.IsRanked (guidance : Guidance) (row : KindRow) : Prop :=
  guidance.priority row.kind = .ok row.priority

theorem exists_kindRow {count : Kind × Nat} (answers : guidance.Answers count.1) :
    ∃ row, kindRow guidance count = .ok row ∧ row.IsRanked guidance ∧
      count = (row.kind, row.count) := by
  obtain ⟨fields, entry⟩ := answers.exists_entry
  obtain ⟨priority, answer⟩ := exists_of_isOk answers.priority
  rw [kindRow, answer, Guidance.isAutoFixable, entry]
  exact ⟨_, rfl, answer, rfl⟩

/-- There is one row for each kind that is counted. -/
theorem exists_kindRows (answers : ∀ count ∈ summary.counts, guidance.Answers count.1) :
    ∃ rows, kindRows guidance summary = .ok rows ∧ (∀ row ∈ rows, row.IsRanked guidance) ∧
      (rows.map fun row => (row.kind, row.count)).Perm summary.counts := by
  obtain ⟨rows, made, fitting⟩ := exists_mapM_eq_ok fun count member =>
    exists_kindRow (answers count member)
  obtain ⟨ranked, fitting⟩ := (List.forall₂_and_left _ _).mp fitting.flip
  have counted : rows.map (fun row => (row.kind, row.count)) = summary.counts := by
    rw [← List.forall₂_eq_eq_eq, List.forall₂_map_left_iff]
    exact fitting.imp fun _ _ => Eq.symm
  refine ⟨rows.mergeSort KindRow.atMost, by rw [kindRows, made]; rfl, ?_, ?_⟩
  · exact fun row member => ranked row (List.mem_mergeSort.mp member)
  · rw [← counted]
    exact (List.mergeSort_perm rows _).map _

theorem fileRows_perm (violations : List Violation) :
    (fileRows violations).Perm ((Summary.filesOf violations).map (fileRow violations)) :=
  List.mergeSort_perm _ _

/-- There is one row for each file that has violations. -/
theorem nodup_fileRows (violations : List Violation) :
    ((fileRows violations).map (·.file)).Nodup := by
  have files : ((Summary.filesOf violations).map (fileRow violations)).map (·.file) =
      Summary.filesOf violations := by
    rw [List.map_map]
    exact List.map_id _
  rw [((fileRows_perm violations).map _).nodup_iff, files]
  exact Summary.nodup_filesOf violations

theorem sum_fileRows (violations : List Violation) :
    ((fileRows violations).map (·.total)).sum = violations.length := by
  rw [((fileRows_perm violations).map _).sum_nat, List.map_map]
  have parts := sum_countP (·.file) (Summary.nodup_filesOf violations)
    fun violation member => Summary.mem_filesOf.mpr ⟨violation, member, rfl⟩
  simp only [List.countP_eq_length_filter] at parts
  exact parts

/-- The row of a file counts its violations, all of them and by kind. -/
theorem of_mem_fileRows {row : FileRow} (member : row ∈ fileRows violations) :
    row.total = violations.countP (·.file == row.file) ∧
      (row.counts.map (·.2)).sum = row.total := by
  obtain ⟨file, _, rfl⟩ := List.mem_map.mp ((fileRows_perm violations).mem_iff.mp member)
  refine ⟨List.countP_eq_length_filter.symm, ?_⟩
  rw [fileRow, ((List.mergeSort_perm _ countAtMost).map _).sum_nat]
  exact Summary.sum_countByKind _

/-- Whether the cells show a kind and the number of its violations. -/
def ShowsKind (row : KindRow) (cells : List String) : Prop :=
  ∃ rest, cells = row.kind.tag :: toString row.count :: rest

/-- Whether the cells show a file and the number of its violations. -/
def ShowsFile (row : FileRow) (cells : List String) : Prop :=
  ∃ rest, cells = row.file :: toString row.total :: rest

/-- Whether the cells show a violation: where it is, its kind and severity, and its message. -/
def ShowsViolation (violation : Violation) (cells : List String) : Prop :=
  cells = [violation.file ++ ":" ++ toString violation.line, violation.kind.tag,
    severityText violation.severity, violation.message]

/-- The table of kinds can be shown if the priorities have texts. -/
theorem exists_kindGrid {rows : List KindRow}
    (shown : ∀ row ∈ rows, Number.isTooLong row.priority = false) :
    ∃ grid, kindGrid rows = .ok grid ∧ List.Forall₂ ShowsKind rows grid.rows := by
  have each (row : KindRow) (member : row ∈ rows) :
      ∃ cells, kindCells row = .ok cells ∧ ShowsKind row cells := by
    rw [kindCells, Guidance.priorityText, shown row member]
    exact ⟨_, rfl, _, rfl⟩
  obtain ⟨cells, made, fitting⟩ := exists_mapM_eq_ok each
  exact ⟨_, by rw [kindGrid, made]; rfl, fitting⟩

theorem showsFile_fileGrid (rows : List FileRow) :
    List.Forall₂ ShowsFile rows (fileGrid rows).rows :=
  List.forall₂_map_right_iff.mpr (List.forall₂_same.mpr fun _ _ => ⟨_, rfl⟩)

theorem showsViolation_detailGrid (violations : List Violation) :
    List.Forall₂ ShowsViolation violations (detailGrid violations).rows :=
  List.forall₂_map_right_iff.mpr (List.forall₂_same.mpr fun _ _ => rfl)

/-- The terminal shows the table of a view and that of the violations. -/
theorem exists_auditPrints {audit : Audit} (found : audit.violations ≠ []) (view : View)
    {grid : Grid}
    (tabled : (match view with
      | .byKind => kindRows guidance audit.summary >>= kindGrid
      | .byFile => .ok (fileGrid (fileRows audit.violations))) = .ok grid) :
    ∃ rest, auditPrints guidance audit view =
      .ok (.grid grid :: .grid (detailGrid audit.violations) :: rest) := by
  have violating : audit.violations.isEmpty = false := by simpa using found
  rw [auditPrints, violating]
  cases view with
  | byKind =>
    dsimp only at tabled
    rw [tabled]
    exact ⟨_, rfl⟩
  | byFile =>
    cases tabled
    exact ⟨_, rfl⟩

/-! ### The order of sections -/

section

variable {counts : List (Kind × Nat)} {keys : List Guidance.Key}

theorem find?_key_eq_some (once : (counts.map (·.1)).Nodup) {key : Guidance.Key}
    {count : Kind × Nat} :
    counts.find? (fun other => .text other.1.tag == key) = some count ↔
      count ∈ counts ∧ .text count.1.tag = key := by
  constructor
  · intro found
    exact ⟨List.mem_of_find?_eq_some found, by simpa using List.find?_some found⟩
  · rintro ⟨member, rfl⟩
    obtain ⟨found, stands⟩ := Option.isSome_iff_exists.mp
      (List.find?_isSome (p := fun other => Guidance.Key.text other.1.tag == .text count.1.tag).mpr
        ⟨count, member, beq_self_eq_true _⟩)
    have same : found.1.tag = count.1.tag := by simpa using List.find?_some stands
    rw [stands, List.inj_on_of_nodup_map once (List.mem_of_find?_eq_some stands) member
      (Kind.tag_injective same)]

/-- The counts under some keys, in the order of the keys. -/
theorem filterMap_find?_perm (once : (counts.map (·.1)).Nodup) (distinct : keys.Nodup) :
    (keys.filterMap fun key => counts.find? fun count => .text count.1.tag == key).Perm
      (counts.filter fun count => keys.contains (.text count.1.tag)) := by
  refine (List.perm_ext_iff_of_nodup ?_ (once.of_map.filter _)).mpr fun count => ?_
  · refine List.pairwise_filterMap.mpr (distinct.imp fun {key key'} apart => ?_)
    rintro count found _ found' rfl
    exact apart (((find?_key_eq_some once).mp found).2.symm.trans
      ((find?_key_eq_some once).mp found').2)
  · simp only [List.mem_filterMap, find?_key_eq_some once, List.mem_filter,
      List.contains_iff_mem]
    constructor
    · rintro ⟨_, ranked, member, rfl⟩
      exact ⟨member, ranked⟩
    · rintro ⟨member, ranked⟩
      exact ⟨_, ranked, member, rfl⟩

end

/-- Each kind that is counted has one place in the order, whether or not the registry knows it. -/
theorem exists_sectionOrder (once : (summary.counts.map (·.1)).Nodup)
    (distinct : (guidance.entries.map (·.1)).Nodup) {keys : List Guidance.Key}
    (ranks : guidance.priorityOrder = .ok keys) :
    ∃ order, sectionOrder guidance summary = .ok order ∧ order.Perm summary.counts := by
  rw [sectionOrder, ranks]
  refine ⟨_, rfl, ?_⟩
  refine .trans (.append (filterMap_find?_perm once
    (Guidance.nodup_priorityOrder distinct ranks)) (List.mergeSort_perm _ _)) ?_
  exact List.filter_append_perm _ summary.counts

/-! ### Sections -/

/-- Whether a line is the bullet of a violation: its file and line, and its message. -/
def IsBullet (violation : Violation) (line : String) : Prop :=
  line = "- `" ++ violation.file ++ ":" ++ toString violation.line ++ "` " ++ violation.message

theorem isBullet_bullet (violation : Violation) : IsBullet violation (bullet violation) := by
  rw [IsBullet, bullet, Violation.location]
  simp only [String.append_assoc]

/-- Whether lines are what the guidance says about a kind: a strategy and an example, each of them
only if there is one. -/
def IsAdvice (guidance : Guidance) (kind : Kind) (lines : List String) : Prop :=
  ∃ fields strategy sample, guidance.entry kind = .ok fields ∧
    guidance.usableText fields "fix_strategy" = .ok strategy ∧
    guidance.usableText fields "example_fix" = .ok sample ∧
    lines = (strategy.elim [] fun text => ["**Strategy**:", "", text, ""]) ++
      sample.elim [] fun text => ["**Example**:", "```rust", text, "```", ""]

/-- Whether lines are the section of a kind: its title with the number of its violations, what the
guidance says about it, and as many bullets, one for each of its violations in their order. -/
def IsSection (guidance : Guidance) (violations : List Violation) (count : Kind × Nat)
    (lines : List String) : Prop :=
  ∃ advice bullets, IsAdvice guidance count.1 advice ∧
    List.Forall₂ IsBullet (violations.filter (·.kind == count.1)) bullets ∧
    bullets.length = count.2 ∧
    lines = ["### " ++ count.1.tag ++ " (" ++ toString count.2 ++ " violations)", ""] ++
      advice ++ bullets ++ [""]

theorem exists_kindSection {count : Kind × Nat}
    (each : count.2 = violations.countP (·.kind == count.1))
    (answers : guidance.Answers count.1) :
    ∃ lines, kindSection guidance violations count = .ok lines ∧
      IsSection guidance violations count lines := by
  obtain ⟨fields, entry⟩ := answers.exists_entry
  obtain ⟨strategy, advised⟩ := exists_of_isOk answers.strategy
  obtain ⟨sample, shown⟩ := exists_of_isOk answers.sample
  rw [bind_of_ok entry] at advised shown
  have advice : IsAdvice guidance count.1 (adviceLines strategy sample) := by
    refine ⟨fields, strategy, sample, entry, advised, shown, ?_⟩
    cases strategy <;> cases sample <;> rfl
  have bullets : List.Forall₂ IsBullet (violations.filter (·.kind == count.1))
      ((violations.filter (·.kind == count.1)).map bullet) :=
    List.forall₂_map_right_iff.mpr (List.forall₂_same.mpr fun violation _ =>
      isBullet_bullet violation)
  refine ⟨_, ?_, _, _, advice, bullets, ?_, rfl⟩
  · rw [kindSection, bind_of_ok entry, bind_of_ok advised, bind_of_ok shown]
    rfl
  · rw [each, List.length_map, List.countP_eq_length_filter]

/-- Whether a line is the one for a kind in the order of priorities. -/
def IsPriorityLine (guidance : Guidance) (place : (Kind × Nat) × Nat) (line : String) : Prop :=
  ∃ fields suggestion, guidance.entry place.1.1 = .ok fields ∧
    guidance.fieldText fields "suggested_fix" "" = .ok suggestion ∧
    line = toString (place.2 + 1) ++ ". **" ++ place.1.1.tag ++ "** - " ++ suggestion

theorem exists_priorityLine {place : (Kind × Nat) × Nat}
    (answers : guidance.Answers place.1.1) :
    ∃ line, priorityLine guidance place = .ok line ∧ IsPriorityLine guidance place line := by
  obtain ⟨fields, entry⟩ := answers.exists_entry
  have answer := answers.suggestion
  rw [Guidance.suggestion, entry] at answer
  obtain ⟨suggestion, suggested⟩ := Guidance.exists_fieldText answer ""
  refine ⟨_, ?_, fields, suggestion, entry, suggested, rfl⟩
  rw [priorityLine, bind_of_ok entry, bind_of_ok suggested]
  rfl

/-- A report in Markdown has a line and a section for each kind, in the order of sections. -/
theorem exists_markdown {audit : Audit} (counted : audit.summary.Counts audit.violations)
    (found : audit.violations ≠ []) {order : List (Kind × Nat)}
    (ordered : sectionOrder guidance audit.summary = .ok order)
    (perm : order.Perm audit.summary.counts)
    (answers : ∀ count ∈ order, guidance.Answers count.1) :
    ∃ priorities sections,
      List.Forall₂ (IsPriorityLine guidance) order.zipIdx priorities ∧
      List.Forall₂ (IsSection guidance audit.violations) order sections ∧
      ∀ analyses time, markdown guidance audit analyses time = .ok ("\n".intercalate <|
        headLines audit time ++ ["## Fix Priority Order", ""] ++ priorities ++ [""] ++
          ["## Violation Summary", ""] ++ sections.flatten ++
          contextSection (analyses.getD [])) := by
  obtain ⟨priorities, numbered, lines⟩ := exists_mapM_eq_ok fun place member =>
    exists_priorityLine (answers place.1 (List.fst_mem_of_mem_zipIdx member))
  obtain ⟨sections, written, parts⟩ := exists_mapM_eq_ok fun count member =>
    exists_kindSection (counted.each count (perm.mem_iff.mp member)) (answers count member)
  have violating : audit.summary.isCompliant = false := by
    rw [Summary.isCompliant, counted.total, beq_eq_false_iff_ne]
    exact fun none => found (List.length_eq_zero_iff.mp none)
  refine ⟨priorities, sections, lines, parts, fun analyses time => ?_⟩
  rw [markdown, violating, bind_of_ok ordered, bind_of_ok numbered, bind_of_ok written]
  rfl

/-- The violations in the order of sections are all violations. -/
theorem flatMap_sections_perm (counted : summary.Counts violations)
    {order : List (Kind × Nat)} (perm : order.Perm summary.counts) :
    (order.flatMap fun count => violations.filter (·.kind == count.1)).Perm violations := by
  have kinds : (order.map (·.1)).Perm (summary.counts.map (·.1)) := perm.map _
  have parts := perm_flatMap_filter (·.kind) (kinds.nodup_iff.mpr counted.once)
    fun violation member =>
      kinds.mem_iff.mpr ((counted.appear violation.kind).mpr ⟨violation, member, rfl⟩)
  rwa [List.flatMap_map] at parts

/-! ### Records -/

/-- Whether a document is the record of a violation: what it is, and what the guidance says about
its kind. -/
def IsRecord (guidance : Guidance) (violation : Violation) (record : Json) : Prop :=
  ∃ suggestion priority, guidance.suggestion violation.kind = .ok suggestion ∧
    guidance.priority violation.kind = .ok priority ∧
    record = .object
      [("kind", .string violation.kind.tag), ("file", .string violation.file),
        ("line", .integer violation.line), ("message", .string violation.message),
        ("severity", .string violation.severity.label), ("suggested_fix", .string suggestion),
        ("priority", .integer priority)]

theorem exists_violationDocument {violation : Violation}
    (answers : guidance.Answers violation.kind) :
    ∃ record, violationDocument guidance violation = .ok record ∧
      IsRecord guidance violation record := by
  obtain ⟨suggestion, suggested⟩ := exists_of_isOk answers.suggestion
  obtain ⟨priority, answer⟩ := exists_of_isOk answers.priority
  refine ⟨_, ?_, suggestion, priority, suggested, answer, rfl⟩
  rw [violationDocument, suggested, answer]
  rfl

/-- What a document says about an audit as a whole. -/
def metadataDocument (audit : Audit) (time : String) : Json :=
  .object
    [("timestamp", .string time),
      ("project_path", .string audit.root),
      ("tool", .string toolName),
      ("tool_version", .string version),
      ("total_files", .integer audit.summary.files),
      ("total_violations", .integer audit.summary.total)]

/-- A report in JSON has a record for each violation, in the same order. -/
theorem exists_document {audit : Audit}
    (answers : ∀ violation ∈ audit.violations, guidance.Answers violation.kind) :
    ∃ records, List.Forall₂ (IsRecord guidance) audit.violations records ∧
      ∀ time, document guidance audit none time = .ok (.object
        [("metadata", metadataDocument audit time),
          ("summary", summaryDocument audit.summary), ("violations", .array records)]) := by
  obtain ⟨records, recorded, fitting⟩ := exists_mapM_eq_ok fun violation member =>
    exists_violationDocument (answers violation member)
  refine ⟨records, fitting, fun time => ?_⟩
  rw [document]
  simp only [recorded, bind, Except.bind]
  rfl

/-! ### All reports -/

/-- Whether the reports on an audit have each of its violations, and have it once: counted in the
row of its kind and in that of its file, in a row of its own below these tables, as a bullet in the
one section of its kind, and as a record in its place. The table of kinds holds priorities, so it is
shown if they have texts. -/
structure AreComplete (guidance : Guidance) (audit : Audit) : Prop where
  kinds : ∃ rows, kindRows guidance audit.summary = .ok rows ∧
    (rows.map fun row => (row.kind, row.count)).Perm audit.summary.counts ∧
    (rows.map (·.count)).sum = audit.summary.total ∧
    ((∀ row ∈ rows, Number.isTooLong row.priority = false) →
      ∃ grid details rest, List.Forall₂ ShowsKind rows grid.rows ∧
        List.Forall₂ ShowsViolation audit.violations details.rows ∧
        auditPrints guidance audit .byKind = .ok (.grid grid :: .grid details :: rest))
  files : ((fileRows audit.violations).map (·.file)).Nodup ∧
    (∀ row ∈ fileRows audit.violations,
      row.total = audit.violations.countP (·.file == row.file) ∧
        (row.counts.map (·.2)).sum = row.total) ∧
    ((fileRows audit.violations).map (·.total)).sum = audit.summary.total ∧
    ∃ grid details rest, List.Forall₂ ShowsFile (fileRows audit.violations) grid.rows ∧
      List.Forall₂ ShowsViolation audit.violations details.rows ∧
      auditPrints guidance audit .byFile = .ok (.grid grid :: .grid details :: rest)
  sections : ∃ order priorities sections,
    sectionOrder guidance audit.summary = .ok order ∧
    order.Perm audit.summary.counts ∧ (order.map (·.1)).Nodup ∧
    (∀ kind, kind ∈ order.map (·.1) ↔
      ∃ violation ∈ audit.violations, violation.kind = kind) ∧
    List.Forall₂ (IsPriorityLine guidance) order.zipIdx priorities ∧
    List.Forall₂ (IsSection guidance audit.violations) order sections ∧
    (order.flatMap fun count => audit.violations.filter (·.kind == count.1)).Perm
      audit.violations ∧
    ∀ analyses time, markdown guidance audit analyses time = .ok ("\n".intercalate <|
      headLines audit time ++ ["## Fix Priority Order", ""] ++ priorities ++ [""] ++
        ["## Violation Summary", ""] ++ sections.flatten ++ contextSection (analyses.getD []))
  records : ∃ records, List.Forall₂ (IsRecord guidance) audit.violations records ∧
    ∀ time, document guidance audit none time = .ok (.object
      [("metadata", metadataDocument audit time), ("summary", summaryDocument audit.summary),
        ("violations", .array records)])

/-- No report loses a violation or repeats one, if the guidance ranks its entries and answers for
each kind that appears. -/
theorem areComplete_of_answers {guidance : Guidance} {audit : Audit} {files : Int}
    (summed : audit.summary = .ofViolations audit.violations files)
    (found : audit.violations ≠ []) (distinct : (guidance.entries.map (·.1)).Nodup)
    (ranks : guidance.priorityOrder.isOk = true)
    (answers : ∀ violation ∈ audit.violations, guidance.Answers violation.kind) :
    AreComplete guidance audit := by
  have counted : audit.summary.Counts audit.violations :=
    summed ▸ Summary.counts_ofViolations audit.violations files
  have answersCount : ∀ count ∈ audit.summary.counts, guidance.Answers count.1 := by
    intro count member
    obtain ⟨violation, inside, kind⟩ :=
      (counted.appear count.1).mp (List.mem_map_of_mem member)
    exact kind ▸ answers violation inside
  obtain ⟨keys, ranks⟩ := exists_of_isOk ranks
  obtain ⟨order, ordered, perm⟩ := exists_sectionOrder counted.once distinct ranks
  obtain ⟨rows, tabled, _, rowsPerm⟩ := exists_kindRows answersCount
  constructor
  case kinds =>
    have rowCounts : (rows.map (·.count)).Perm (audit.summary.counts.map (·.2)) := by
      have counts := rowsPerm.map (·.2)
      rwa [List.map_map] at counts
    refine ⟨rows, tabled, rowsPerm, rowCounts.sum_nat.trans counted.sum, fun shown => ?_⟩
    obtain ⟨grid, laid, shows⟩ := exists_kindGrid shown
    obtain ⟨rest, printed⟩ := exists_auditPrints found .byKind
      ((bind_of_ok tabled _).trans laid)
    exact ⟨grid, _, rest, shows, showsViolation_detailGrid _, printed⟩
  case files =>
    obtain ⟨rest, printed⟩ : ∃ rest, auditPrints guidance audit .byFile =
        .ok (.grid (fileGrid (fileRows audit.violations)) ::
          .grid (detailGrid audit.violations) :: rest) := exists_auditPrints found .byFile rfl
    refine ⟨nodup_fileRows audit.violations, fun row => of_mem_fileRows, ?_, _, _, rest,
      showsFile_fileGrid _, showsViolation_detailGrid _, printed⟩
    rw [sum_fileRows, counted.total]
  case sections =>
    obtain ⟨lines, sections, numbered, parts, written⟩ :=
      exists_markdown counted found ordered perm fun count member =>
        answersCount count (perm.mem_iff.mp member)
    have kinds : (order.map (·.1)).Perm (audit.summary.counts.map (·.1)) := perm.map _
    exact ⟨order, lines, sections, ordered, perm, kinds.nodup_iff.mpr counted.once,
      fun kind => kinds.mem_iff.trans (counted.appear kind), numbered, parts,
      flatMap_sections_perm counted perm, written⟩
  case records => exact exists_document answers

/-- A registry with an entry for one kind, entries for no kind under a text and under another key,
the text with the same priority, and a default one. -/
def partialGuidance : Guidance where
  entries :=
    [(.text "MissingDocs",
        .table [("priority", .integer 2), ("suggested_fix", .string "Document it")]),
      (.other 0 7, .table [("priority", .integer 3)]),
      (.text "Elsewhere", .table [("priority", .integer 2)]),
      (Guidance.defaultKey, .table [("fix_strategy", .string "Review")])]

/-- Three violations of two kinds in two files. -/
def mixedAudit : Audit :=
  let violations : List Violation :=
    [⟨.lineTooLong, "a.rs", 1, "long", .warning⟩, ⟨.missingDocs, "a.rs", 2, "bare", .warning⟩,
      ⟨.lineTooLong, "b.rs", 1, "long", .warning⟩]
  ⟨"/p", violations, .ofViolations violations 2, []⟩

/-- Kinds that the registry knows and kinds that it does not are reported alike. -/
theorem areComplete_of_answers_partialGuidance :
    mixedAudit.summary = .ofViolations mixedAudit.violations 2 ∧ mixedAudit.violations ≠ [] ∧
      (partialGuidance.entries.map (·.1)).Nodup ∧ partialGuidance.priorityOrder.isOk = true ∧
      (∀ violation ∈ mixedAudit.violations, partialGuidance.Answers violation.kind) ∧
      AreComplete partialGuidance mixedAudit := by
  have found : mixedAudit.violations ≠ [] := by decide
  have distinct : (partialGuidance.entries.map (·.1)).Nodup := by decide
  have ranks : partialGuidance.priorityOrder.isOk = true := rfl
  have answers : ∀ violation ∈ mixedAudit.violations,
      partialGuidance.Answers violation.kind := by
    intro violation member
    simp only [mixedAudit, List.mem_cons, List.not_mem_nil, or_false] at member
    rcases member with rfl | rfl | rfl <;> exact ⟨rfl, rfl, rfl, rfl⟩
  exact ⟨rfl, found, distinct, ranks, answers,
    areComplete_of_answers rfl found distinct ranks answers⟩

end Report

end CrateAudit
