/-
This file says where the violations of an audit come from: each was found in one of
the files that were read, and names that file and one of its lines. So the source that
is kept for the file of a violation is the one of a file that was read under this name.
-/

import CrateAudit.Project.Scan

namespace CrateAudit

namespace Violation

/-- Whether a violation names a line of a source, by its index. -/
structure IsAt (violation : Violation) (source : Source) (index : Nat) : Prop where
  file : violation.file = source.path
  line : violation.line = (index : Int) + 1

/-- Whether a violation names a line that a source has. -/
def LiesIn (violation : Violation) (source : Source) : Prop :=
  ∃ index < source.lines.length, violation.IsAt source index

/-- Whether a violation is about a source that has no line to name. -/
def IsAboutEmpty (violation : Violation) (source : Source) : Prop :=
  violation.file = source.path ∧ violation.line = 0 ∧ source.lines = []

theorem liesIn_iff {violation : Violation} {source : Source} :
    violation.LiesIn source ↔
      violation.file = source.path ∧ 1 ≤ violation.line ∧
        violation.line ≤ source.lines.length := by
  constructor
  · rintro ⟨index, inside, file, line⟩
    exact ⟨file, by omega, by omega⟩
  · rintro ⟨file, first, last⟩
    exact ⟨(violation.line - 1).toNat, by omega, file, by omega⟩

theorem LiesIn.file {violation : Violation} {source : Source} (lies : violation.LiesIn source) :
    violation.file = source.path :=
  (liesIn_iff.mp lies).1

end Violation

namespace Scan

/-! ### Settings that are scanned alike -/

theorem checkLinesFrom_congr {settings settings' : Settings}
    (same : checkLine settings = checkLine settings') (exempt : Exemptions) (source : Source)
    (scope : TestScope) (index : Nat) (lines : List Line) :
    checkLinesFrom settings exempt source scope index lines =
      checkLinesFrom settings' exempt source scope index lines := by
  induction lines generalizing scope index with
  | nil => rfl
  | cons line rest inductionHypothesis =>
    rw [checkLinesFrom, checkLinesFrom, inductionHypothesis, same]

/-- What is found in a Rust file depends on what the settings say about its size, its exemptions
and each of its lines. -/
theorem rustFile_congr {settings settings' : Settings}
    (size : checkFileSize settings = checkFileSize settings')
    (exempt : exemptions settings = exemptions settings')
    (line : checkLine settings = checkLine settings') : rustFile settings = rustFile settings' := by
  funext source testPath
  simp only [rustFile, size, exempt, checkLinesFrom_congr line]

/-! ### Every finding names its file and a line of it -/

theorem eq_of_mem_checkLiteral {rule : Rule} {source : Source} {index : Nat} {line : Line}
    {violation : Violation} (found : violation ∈ checkLiteral rule source index line) :
    violation = rule.located source.path index := by
  rw [checkLiteral] at found
  split at found
  · exact List.mem_singleton.mp found
  · cases found

theorem eq_of_mem_checkCall {settings : Settings} {rule : Rule} {source : Source}
    {index : Nat} {line : Line} {violation : Violation}
    (found : violation ∈ checkCall settings rule source index line) :
    violation = rule.located source.path index := by
  rw [checkCall] at found
  split at found
  · exact eq_of_mem_checkLiteral found
  · cases found

theorem isAt_located (rule : Rule) (source : Source) (index : Nat) :
    (rule.located source.path index).IsAt source index := ⟨rfl, rfl⟩

/-- The findings about calls on a line outside of tests. -/
def checkCalls (settings : Settings) (exempt : Exemptions) (source : Source) (index : Nat)
    (line : Line) : List Violation :=
  (if exempt.unwrap then [] else checkCall settings Rule.unwrapCall source index line) ++
    (if exempt.expect then [] else checkCall settings Rule.expectCall source index line)

theorem of_mem_checkCalls {settings : Settings} {exempt : Exemptions} {source : Source}
    {index : Nat} {line : Line} {violation : Violation}
    (found : violation ∈ checkCalls settings exempt source index line) :
    violation.IsAt source index ∧ violation.kind = .unwrapInProduction := by
  rcases List.mem_append.mp found with unwrap | expect
  · split at unwrap
    · cases unwrap
    · rw [eq_of_mem_checkCall unwrap]
      exact ⟨isAt_located _ source index, rfl⟩
  · split at expect
    · cases expect
    · rw [eq_of_mem_checkCall expect]
      exact ⟨isAt_located _ source index, rfl⟩

/-- The parameter that is looked for stands on one of the lines that are looked at. -/
theorem lt_of_parameterLine? {name : Line} {lines : List Line} {count start index : Nat}
    (found : parameterLine? name (((lines.take count).zipIdx).drop start) = some index) :
    index < lines.length := by
  obtain ⟨entry, member, rfl⟩ := Option.map_eq_some_iff.mp found
  have entry_mem := List.mem_of_mem_drop (List.mem_of_find?_eq_some member)
  have short := List.snd_lt_of_mem_zipIdx entry_mem
  rw [List.length_take] at short
  omega

theorem of_mem_checkUnderscoreParameter {source : Source} {start : Nat}
    {violation : Violation} (found : violation ∈ checkUnderscoreParameter source start) :
    violation.LiesIn source ∧ violation.kind = .underscoreBandaid := by
  rw [checkUnderscoreParameter] at found
  simp only at found
  split at found
  · cases found
  · split at found
    · cases found
    · rename_i index stands
      rw [List.mem_singleton.mp found]
      exact ⟨⟨index, lt_of_parameterLine? stands, rfl, rfl⟩, rfl⟩

theorem of_mem_checkFunction {settings : Settings} {source : Source} {start : Nat}
    {violation : Violation} (found : violation ∈ checkFunction settings source start) :
    violation.LiesIn source ∧
      (violation.kind = .functionTooLarge ∨ violation.kind = .underscoreBandaid) := by
  rw [checkFunction] at found
  split at found
  · cases found
  · rename_i function located
    rcases List.mem_append.mp found with size | parameters
    · split at size
      · rw [List.mem_singleton.mp size]
        rw [Rust.functionAt?] at located
        split at located
        · rename_i inside
          obtain ⟨name, _, rfl⟩ := Option.map_eq_some_iff.mp located
          exact ⟨⟨start, inside, rfl, rfl⟩, Or.inl rfl⟩
        · cases located
      · cases size
    · split at parameters
      · exact (of_mem_checkUnderscoreParameter parameters).imp_right Or.inr
      · cases parameters

theorem of_mem_checkDocs {settings : Settings} {source : Source} {index : Nat} {line : Line}
    {violation : Violation} (found : violation ∈ checkDocs settings source index line) :
    violation.IsAt source index ∧ violation.kind = .missingDocs := by
  rw [checkDocs] at found
  split at found
  · split at found
    · cases found
    · split at found
      · cases found
      · rw [List.mem_singleton.mp found]
        exact ⟨⟨rfl, rfl⟩, rfl⟩
  · cases found

theorem of_mem_checkLineLength {settings : Settings} {source : Source} {index : Nat}
    {line : Line} {violation : Violation}
    (found : violation ∈ checkLineLength settings source index line) :
    violation.IsAt source index ∧ violation.kind = .lineTooLong := by
  rw [checkLineLength] at found
  split at found
  · rw [List.mem_singleton.mp found]
    exact ⟨⟨rfl, rfl⟩, rfl⟩
  · cases found

theorem of_mem_checkCustomRule {source : Source} {index : Nat} {line : Line} {rule : Rule}
    {violation : Violation} (found : violation ∈ checkCustomRule source index line rule) :
    violation.IsAt source index ∧ violation.kind = rule.kind := by
  rw [checkCustomRule] at found
  split at found
  · cases found
  · split at found
    · cases found
    · rw [List.mem_singleton.mp found]
      exact ⟨⟨rfl, rfl⟩, rfl⟩

theorem of_mem_checkCustomRules {settings : Settings} {source : Source} {index : Nat}
    {line : Line} {violation : Violation}
    (found : violation ∈ checkCustomRules settings source index line) :
    violation.IsAt source index ∧
      ∃ rule ∈ settings.rules.custom, violation.kind = rule.kind := by
  obtain ⟨rule, chosen, found⟩ := List.mem_flatMap.mp found
  have own := of_mem_checkCustomRule found
  exact ⟨own.1, rule, (List.mem_filter.mp chosen).1, own.2⟩

/-- A file that is too long has a last line. -/
theorem of_mem_checkFileSize {settings : Settings} {source : Source} {violation : Violation}
    (found : violation ∈ checkFileSize settings source) :
    violation.LiesIn source ∧ violation.kind = .fileTooLarge := by
  rw [checkFileSize] at found
  simp only [Bool.and_eq_true, decide_eq_true_eq] at found
  split at found
  · rename_i large
    rw [List.mem_singleton.mp found]
    refine ⟨Violation.liesIn_iff.mpr ⟨rfl, ?_, Int.le_refl _⟩, rfl⟩
    have some := large.2
    simp only
    omega
  · cases found

/-- What is found on a line, by the check that finds it. -/
theorem mem_checkLine {settings : Settings} {exempt : Exemptions} {source : Source}
    {inTest : Bool} {index : Nat} {line : Line} {violation : Violation} :
    violation ∈ checkLine settings exempt source inTest index line ↔
      (definesFunction line = true ∧ violation ∈ checkFunction settings source index) ∨
      (checksUnderscores settings = true ∧
        violation ∈ checkLiteral Rule.underscoreBinding source index line) ∨
      (inTest = false ∧ violation ∈ checkCalls settings exempt source index line) ∨
      (inTest = false ∧ settings.requireDocumentation = true ∧
        violation ∈ checkDocs settings source index line) ∨
      violation ∈ checkLineLength settings source index line ∨
      violation ∈ checkCustomRules settings source index line := by
  rw [checkLine, ← checkCalls]
  simp only [List.mem_append, List.mem_ite_nil_left, List.mem_ite_nil_right, Bool.not_eq_true,
    and_or_left, or_assoc]

theorem liesIn_of_mem_checkLine {settings : Settings} {exempt : Exemptions} {source : Source}
    {inTest : Bool} {index : Nat} (inside : index < source.lines.length) {line : Line}
    {violation : Violation}
    (found : violation ∈ checkLine settings exempt source inTest index line) :
    violation.LiesIn source := by
  rcases mem_checkLine.mp found with
    ⟨_, functions⟩ | ⟨_, binding⟩ | ⟨_, calls⟩ | ⟨_, _, docs⟩ | length | custom
  · exact (of_mem_checkFunction functions).1
  · rw [eq_of_mem_checkLiteral binding]
    exact ⟨index, inside, isAt_located _ source index⟩
  · exact ⟨index, inside, (of_mem_checkCalls calls).1⟩
  · exact ⟨index, inside, (of_mem_checkDocs docs).1⟩
  · exact ⟨index, inside, (of_mem_checkLineLength length).1⟩
  · exact ⟨index, inside, (of_mem_checkCustomRules custom).1⟩

theorem liesIn_of_mem_checkLinesFrom {settings : Settings} {exempt : Exemptions}
    {source : Source} {scope : TestScope} {index : Nat} {lines : List Line}
    (inside : index + lines.length ≤ source.lines.length) {violation : Violation}
    (found : violation ∈ checkLinesFrom settings exempt source scope index lines) :
    violation.LiesIn source := by
  induction lines generalizing scope index with
  | nil => cases found
  | cons line rest inductionHypothesis =>
    rw [List.length_cons] at inside
    rw [checkLinesFrom] at found
    rcases List.mem_append.mp found with here | later
    · exact liesIn_of_mem_checkLine (by omega) here
    · exact inductionHypothesis (by omega) later

/-- What is found in a Rust file lies in it. -/
theorem liesIn_of_mem_rustFile {settings : Settings} {source : Source}
    {testPath : Option String} {violation : Violation}
    (found : violation ∈ rustFile settings source testPath) : violation.LiesIn source := by
  simp only [rustFile, Violation.sortInFile, List.mem_mergeSort, List.mem_append] at found
  rcases found with size | lines
  · exact (of_mem_checkFileSize size).1
  · exact liesIn_of_mem_checkLinesFrom (by omega) lines

/-- What is about a manifest as a whole is found on its first line, if it has one. -/
theorem liesIn_or_isAboutEmpty {source : Source} {violation : Violation}
    (file : violation.file = source.path)
    (whole : violation.line = wholeFileLine source.lines) :
    violation.LiesIn source ∨ violation.IsAboutEmpty source := by
  rw [wholeFileLine] at whole
  split at whole
  · rename_i none
    exact Or.inr ⟨file, whole, List.isEmpty_iff.mp none⟩
  · rename_i some
    have filled : 0 < source.lines.length :=
      List.length_pos_iff.mpr fun none => some (List.isEmpty_iff.mpr none)
    exact Or.inl ⟨0, filled, file, whole⟩

theorem of_mem_checkEdition {settings : Settings} {source : Source} {violation : Violation}
    (found : violation ∈ checkEdition settings source) :
    (violation.LiesIn source ∨ violation.IsAboutEmpty source) ∧
      violation.kind = .wrongEdition := by
  rw [checkEdition] at found
  split at found
  · rename_i line index stands
    split at found
    · cases found
    · rw [List.mem_singleton.mp found]
      have short := List.snd_lt_of_mem_zipIdx (List.mem_of_find?_eq_some stands)
      rw [List.length_map] at short
      exact ⟨Or.inl ⟨index, short, rfl, rfl⟩, rfl⟩
  · split at found
    · rw [List.mem_singleton.mp found]
      exact ⟨liesIn_or_isAboutEmpty rfl rfl, rfl⟩
    · cases found

theorem of_mem_checkDependencies {settings : Settings} {source : Source} {violation : Violation}
    (found : violation ∈ checkDependencies settings source) :
    (violation.LiesIn source ∨ violation.IsAboutEmpty source) ∧
      violation.kind = .missingDependencies := by
  obtain ⟨name, _, rfl⟩ := List.mem_map.mp found
  exact ⟨liesIn_or_isAboutEmpty rfl rfl, rfl⟩

/-- A manifest has findings about its edition and its dependencies only. -/
theorem of_mem_manifest {settings : Settings} {source : Source} {violation : Violation}
    (found : violation ∈ manifest settings source) :
    (violation.LiesIn source ∨ violation.IsAboutEmpty source) ∧
      (violation.kind = .wrongEdition ∨ violation.kind = .missingDependencies) := by
  rw [manifest, Violation.sortInFile, List.mem_mergeSort] at found
  rcases List.mem_append.mp found with edition | dependencies
  · split at edition
    · exact (of_mem_checkEdition edition).imp_right Or.inl
    · cases edition
  · split at dependencies
    · exact (of_mem_checkDependencies dependencies).imp_right Or.inr
    · cases dependencies

end Scan

namespace Project

/-- What is found in a source lies in it, or is about a manifest without lines. -/
theorem of_mem_scanSource {settings : Settings} {source : Source} {testPath : Option String}
    {violation : Violation} (found : violation ∈ scanSource settings source testPath) :
    violation.LiesIn source ∨ (violation.IsAboutEmpty source ∧ source.isManifest = true) := by
  rw [scanSource] at found
  split at found
  · rename_i manifest
    exact (Scan.of_mem_manifest found).1.imp_right fun empty => ⟨empty, manifest⟩
  · exact Or.inl (Scan.liesIn_of_mem_rustFile found)

theorem file_of_mem_scanSource {settings : Settings} {source : Source} {testPath : Option String}
    {violation : Violation} (found : violation ∈ scanSource settings source testPath) :
    violation.file = source.path := by
  rcases of_mem_scanSource found with lies | ⟨empty, _⟩
  · exact lies.file
  · exact empty.1

/-! ### The files that were read -/

/-- The path that tells whether a file holds tests, if it is not the one that is shown. -/
def testPathOf (root path : Path) : Option String :=
  if path = root then some path.text else none

/-- A scan of a file holds its text and what is found in it. -/
theorem scanFile_eq_ok {settings : Settings} {disk : Disk} {root path : Path} {scan : FileScan} :
    scanFile settings disk root path = .ok scan ↔
      ∃ content, disk.readText path = .ok content ∧
        scan = ⟨.ofText (path.shownBelow root) content,
          scanSource settings (.ofText (path.shownBelow root) content) (testPathOf root path)⟩ := by
  rw [scanFile]
  cases disk.readText path with
  | error fault => simp [bind, Except.bind]
  | ok content =>
    simp only [bind, Except.bind, pure, Except.pure, Except.ok.injEq]
    constructor
    · exact fun same => ⟨content, rfl, same.symm⟩
    · rintro ⟨_, rfl, same⟩
      exact same.symm

theorem toOption_eq_some {outcome : Except FileFault FileScan} {scan : FileScan} :
    outcome.toOption = some scan ↔ outcome = .ok scan := by
  cases outcome with
  | error fault => exact iff_of_false (by simp [Except.toOption]) (by simp)
  | ok own => simp [Except.toOption]

theorem scansOf_scanFiles (settings : Settings) (disk : Disk) (root : Path) (paths : List Path) :
    scansOf (scanFiles settings disk root paths) =
      paths.filterMap fun path => (scanFile settings disk root path).toOption := by
  rw [scansOf, scanFiles, List.filterMap_map]
  rfl

theorem mem_scansOf {settings : Settings} {disk : Disk} {root : Path} {paths : List Path}
    {scan : FileScan} :
    scan ∈ scansOf (scanFiles settings disk root paths) ↔
      ∃ path ∈ paths, scanFile settings disk root path = .ok scan := by
  rw [scansOf_scanFiles, List.mem_filterMap]
  simp only [toOption_eq_some]

/-- The scans of an audit. -/
def scansAt (settings : Settings) (disk : Disk) (target : String) : List FileScan :=
  let root := disk.resolve (.ofText target)
  scansOf (scanFiles settings disk root (discover disk root settings.excludedDirectories))

/-- A scan of an audit holds what is found in its source. -/
theorem violations_of_mem_scansAt {settings : Settings} {disk : Disk} {target : String}
    {scan : FileScan} (member : scan ∈ scansAt settings disk target) :
    ∃ testPath, scan.violations = scanSource settings scan.source testPath := by
  obtain ⟨path, _, read⟩ := mem_scansOf.mp member
  obtain ⟨content, _, shape⟩ := scanFile_eq_ok.mp read
  exact ⟨testPathOf (disk.resolve (.ofText target)) path, by rw [shape]⟩

theorem audit_eq (settings : Settings) (disk : Disk) (target : String) :
    (audit settings disk target).2 =
      Audit.ofScans (disk.resolve (.ofText target)).text (scansAt settings disk target) := rfl

end Project

/-! ### Scans that are put together -/

theorem Audit.mem_violations_ofScans {root : String} {scans : List FileScan}
    {violation : Violation} :
    violation ∈ (Audit.ofScans root scans).violations ↔
      ∃ scan ∈ scans, violation ∈ scan.violations := by
  simp only [Audit.ofScans, Violation.merge, List.mem_mergeSort, List.mem_flatten, List.mem_map,
    List.mem_filter]
  constructor
  · rintro ⟨_, ⟨scan, ⟨member, _⟩, rfl⟩, found⟩
    exact ⟨scan, member, found⟩
  · rintro ⟨scan, member, found⟩
    have some : (!scan.violations.isEmpty) = true := by
      cases shape : scan.violations with
      | nil =>
        rw [shape] at found
        cases found
      | cons first rest => rfl
    exact ⟨_, ⟨scan, ⟨member, some⟩, rfl⟩, found⟩

theorem Audit.mem_sources_ofScans {root : String} {scans : List FileScan} {source : Source} :
    source ∈ (Audit.ofScans root scans).sources ↔
      ∃ scan ∈ scans, scan.violations ≠ [] ∧ scan.source = source := by
  simp only [Audit.ofScans, List.mem_map, List.mem_filter]
  constructor
  · rintro ⟨scan, ⟨member, some⟩, rfl⟩
    exact ⟨scan, member, by simpa using some, rfl⟩
  · rintro ⟨scan, member, some, rfl⟩
    exact ⟨scan, ⟨member, by simpa using some⟩, rfl⟩

theorem Analysis.sourceOf?_eq_some {sources : List Source} {file : String} {source : Source}
    (found : Analysis.sourceOf? sources file = some source) :
    source ∈ sources ∧ source.path = file :=
  ⟨List.mem_of_find?_eq_some found, by simpa using List.find?_some found⟩

namespace Project

variable {settings : Settings} {disk : Disk} {target : String}

/-- A violation was found in a file that was read, and names it. -/
theorem exists_scan_of_mem_violations {violation : Violation}
    (found : violation ∈ (audit settings disk target).2.violations) :
    ∃ scan ∈ scansAt settings disk target, violation ∈ scan.violations ∧
      violation.file = scan.source.path := by
  rw [audit_eq, Audit.mem_violations_ofScans] at found
  obtain ⟨scan, member, inside⟩ := found
  refine ⟨scan, member, inside, ?_⟩
  obtain ⟨testPath, violations⟩ := violations_of_mem_scansAt member
  rw [violations] at inside
  exact file_of_mem_scanSource inside

/-- The source of the file of a violation is kept. -/
theorem exists_source_of_mem_violations {violation : Violation}
    (found : violation ∈ (audit settings disk target).2.violations) :
    ∃ source, Analysis.sourceOf? (audit settings disk target).2.sources violation.file =
      some source := by
  obtain ⟨scan, member, inside, file⟩ := exists_scan_of_mem_violations found
  rw [← Option.isSome_iff_exists, Analysis.sourceOf?, List.find?_isSome]
  refine ⟨scan.source, ?_, by rw [file, beq_self_eq_true]⟩
  rw [audit_eq, Audit.mem_sources_ofScans]
  exact ⟨scan, member, List.ne_nil_of_mem inside, rfl⟩

/-- A violation of a manifest is one of those that manifests have. -/
theorem kind_of_isManifest {violation : Violation} {source : Source}
    (found : violation ∈ (audit settings disk target).2.violations)
    (kept : Analysis.sourceOf? (audit settings disk target).2.sources violation.file =
      some source) (manifest : source.isManifest = true) :
    violation.kind = .wrongEdition ∨ violation.kind = .missingDependencies := by
  obtain ⟨scan, member, inside, file⟩ := exists_scan_of_mem_violations found
  have same : source.path = scan.source.path :=
    (Analysis.sourceOf?_eq_some kept).2.trans file
  obtain ⟨testPath, violations⟩ := violations_of_mem_scansAt member
  have manifest' : scan.source.isManifest = true := by
    rw [Source.isManifest, ← same]
    exact manifest
  rw [violations, scanSource, if_pos manifest'] at inside
  exact (Scan.of_mem_manifest inside).2

end Project

end CrateAudit
