/-
This file says which parameters with an underscore a scan reports. It searches the signature as
it is written, with comments and literals in it, for the first such parameter, and reports the
first line with that name in code. So a name in a comment can hide every parameter of the code.
The parameters in code of a signature are reported exactly if the first name that is written
belongs to one of their lines, or if something else is reported there.
-/

import CrateAudit.Proofs.CustomRules
import CrateAudit.Proofs.WrittenParameters

namespace CrateAudit

namespace Scan

variable {lines : List Line} {start index : Nat} {name : Line}

/-! ### The line that is reported -/

/-- A name is typed on a line, and stands in its code somewhere. -/
structure HoldsParameter (name line : Line) : Prop where
  typed : ∃ offset, IsTypedAt line name offset
  inCode : ∃ offset ∈ Text.occurrences name line, (Rust.lex line).contextAt offset = .code

/-- The line that is reported for the signature at a line, with the name that is reported: the name
of the first parameter that is written there, on the first line that holds it. -/
structure IsReportedFor (lines : List Line) (start index : Nat) (name : Line) : Prop where
  written : ∃ offset, IsFirstParameter (Rust.signatureAt lines start).text name offset
  low : start ≤ index
  high : index ≤ (Rust.signatureAt lines start).braceIndex.toNat
  holds : ∃ line, lines[index]? = some line ∧ HoldsParameter name line
  first : ∀ earlier, start ≤ earlier → earlier < index → ∀ line, lines[earlier]? = some line →
    ¬ HoldsParameter name line

theorem holdsParameter_iff (underscored : IsUnderscored name) {line : Line} :
    ((parameterNamed name).occursIn line && !Rust.isInert line name) = true ↔
      HoldsParameter name line := by
  have filled : name ≠ [] := List.ne_nil_of_length_pos (Nat.lt_of_succ_lt underscored.long)
  rw [Bool.and_eq_true, Bool.not_eq_true', occursIn_parameterNamed underscored]
  have inert {offset : Nat} (typed : IsTypedAt line name offset) :
      Rust.isInert line name = false ↔
        ∃ offset ∈ Text.occurrences name line, (Rust.lex line).contextAt offset = .code := by
    obtain ⟨gap, _, comes⟩ := typed.colon
    have occurs : offset ∈ Text.occurrences name line :=
      (Text.mem_occurrences_of_ne_nil filled).mpr ((List.prefix_append _ _).trans comes)
    rw [Rust.isInert_eq_false_iff occurs]
    exact or_iff_right filled
  constructor
  · rintro ⟨⟨offset, typed⟩, inCode⟩
    exact ⟨⟨offset, typed⟩, (inert typed).mp inCode⟩
  · rintro ⟨⟨offset, typed⟩, inCode⟩
    exact ⟨⟨offset, typed⟩, (inert typed).mpr inCode⟩

/-- The line that is found for a name is the first one of the signature that holds it. -/
theorem parameterLine?_eq_some (underscored : IsUnderscored name) {count : Nat} :
    parameterLine? name (((lines.take count).zipIdx).drop start) = some index ↔
      start ≤ index ∧ index < count ∧
        (∃ line, lines[index]? = some line ∧ HoldsParameter name line) ∧
        ∀ earlier, start ≤ earlier → earlier < index → ∀ line, lines[earlier]? = some line →
          ¬ HoldsParameter name line := by
  have refused (line : Line) :
      (!((parameterNamed name).occursIn line && !Rust.isInert line name)) = true ↔
        ¬ HoldsParameter name line := by
    rw [← holdsParameter_iff underscored, Bool.not_eq_true', Bool.not_eq_true]
  rw [parameterLine?, Option.map_eq_some_iff]
  simp only [List.find?_eq_some_iff_getElem, holdsParameter_iff underscored, refused,
    List.getElem_drop, List.getElem_zipIdx, List.getElem_take, List.length_drop,
    List.length_zipIdx, List.length_take]
  constructor
  · rintro ⟨_, ⟨holds, ahead, inside, rfl, first⟩, rfl⟩
    simp only [Nat.zero_add] at holds ⊢
    refine ⟨Nat.le_add_right _ _, by omega, ⟨_, List.getElem?_eq_getElem (by omega), holds⟩, ?_⟩
    intro earlier low before line stands
    obtain ⟨between, rfl⟩ := Nat.exists_eq_add_of_le low
    obtain ⟨_, rfl⟩ := List.getElem?_eq_some_iff.mp stands
    exact first between (by omega)
  · rintro ⟨low, high, ⟨line, stands, holds⟩, first⟩
    obtain ⟨ahead, rfl⟩ := Nat.exists_eq_add_of_le low
    obtain ⟨inside, rfl⟩ := List.getElem?_eq_some_iff.mp stands
    refine ⟨(lines[start + ahead], start + ahead), ⟨holds, ahead, by omega, by rw [Nat.zero_add],
      fun between before => ?_⟩, rfl⟩
    exact first (start + between) (Nat.le_add_right _ _) (by omega) _
      (List.getElem?_eq_getElem (by omega))

/-- A signature is reported at the one line that is looked for, if at all. -/
theorem mem_checkUnderscoreParameter_iff {source : Source} {violation : Violation} :
    violation ∈ checkUnderscoreParameter source start ↔
      ∃ index name, IsReportedFor source.lines start index name ∧
        violation = ⟨.underscoreBandaid, source.path, index + 1,
          Rule.underscoreParameter (String.ofList name), .error⟩ := by
  have found {index : Nat} {name : Line} (underscored : IsUnderscored name)
      (written : ∃ offset,
        IsFirstParameter (Rust.signatureAt source.lines start).text name offset) :
      parameterLine? name (((source.lines.take
        ((Rust.signatureAt source.lines start).braceIndex.toNat + 1)).zipIdx).drop start) =
          some index ↔ IsReportedFor source.lines start index name := by
    rw [parameterLine?_eq_some underscored, Nat.lt_succ_iff]
    constructor
    · rintro ⟨low, high, holds, first⟩
      exact ⟨written, low, high, holds, first⟩
    · rintro ⟨_, low, high, holds, first⟩
      exact ⟨low, high, holds, first⟩
  simp only [checkUnderscoreParameter]
  constructor
  · intro member
    split at member
    · cases member
    · rename_i name captured
      have written := search?_parameterUse.mp captured
      split at member
      · cases member
      · rename_i index stands
        obtain ⟨offset, own⟩ := written
        exact ⟨index, name, (found own.parameter.underscored ⟨offset, own⟩).mp stands,
          List.mem_singleton.mp member⟩
  · rintro ⟨index, name, reported, rfl⟩
    obtain ⟨offset, own⟩ := reported.written
    have captured := search?_parameterUse.mpr reported.written
    have stands := (found own.parameter.underscored reported.written).mpr reported
    simp only [captured, stands]
    exact List.mem_singleton_self _

/-! ### What a scan reports -/

/-- Whether a value is discarded on a line, by a binding that is not all inert. -/
def Discards (line : Line) : Prop :=
  Rule.underscoreBinding.regex.occursIn line = true ∧ Rust.isInert line "let".toList = false

/-- A line is taken for the definition of a function that is located. -/
def IsDefinedAt (lines : List Line) (start : Nat) : Prop :=
  (∃ line, lines[start]? = some line ∧ definesFunction line = true) ∧
    (Rust.functionAt? lines start).isSome = true

/-- Whether a scan reports an underscore at a line, counted from zero. -/
def ReportsUnderscore (settings : Settings) (source : Source) (testPath : Option String)
    (index : Nat) : Prop :=
  ∃ violation ∈ rustFile settings source testPath,
    violation.kind = .underscoreBandaid ∧ violation.line = index + 1

variable {settings : Settings} {source : Source} {testPath : Option String}

theorem mem_checkFunction_underscore_iff (checks : checksUnderscores settings = true)
    {violation : Violation} (kind : violation.kind = .underscoreBandaid) :
    violation ∈ checkFunction settings source start ↔
      (Rust.functionAt? source.lines start).isSome = true ∧
        violation ∈ checkUnderscoreParameter source start := by
  rw [checkFunction]
  cases Rust.functionAt? source.lines start with
  | none => simp
  | some function =>
    simp only [checks, if_true, List.mem_append, Option.isSome_some, true_and]
    refine or_iff_right fun size => ?_
    split at size
    · rw [List.mem_singleton.mp size] at kind
      cases kind
    · cases size

theorem mem_checkLiteral_underscoreBinding_iff {line : Line} {violation : Violation} :
    violation ∈ checkLiteral Rule.underscoreBinding source index line ↔
      Discards line ∧ violation = Rule.underscoreBinding.located source.path index := by
  have literal : (Rule.underscoreBinding.literal.getD "").toList = "let".toList := rfl
  rw [checkLiteral, literal, List.mem_ite_nil_right, List.mem_singleton, Bool.and_eq_true,
    Bool.not_eq_true', Discards]

/-- What is found under the kind of underscores on a line are the parameters of the function that is
defined there, and a value that is discarded. -/
theorem mem_checkLine_underscore_iff (own : settings.AddsOwnKind)
    (checks : checksUnderscores settings = true) {exempt : Exemptions} {inTest : Bool}
    {line : Line} {violation : Violation} (kind : violation.kind = .underscoreBandaid) :
    violation ∈ checkLine settings exempt source inTest index line ↔
      (definesFunction line = true ∧ (Rust.functionAt? source.lines index).isSome = true ∧
        violation ∈ checkUnderscoreParameter source index) ∨
      (Discards line ∧ violation = Rule.underscoreBinding.located source.path index) := by
  rw [mem_checkLine]
  constructor
  · rintro (⟨defines, functions⟩ | ⟨_, binding⟩ | ⟨_, calls⟩ | ⟨_, _, docs⟩ | length | custom)
    · exact Or.inl ⟨defines, (mem_checkFunction_underscore_iff checks kind).mp functions⟩
    · exact Or.inr (mem_checkLiteral_underscoreBinding_iff.mp binding)
    · exact absurd (kind.symm.trans (of_mem_checkCalls calls).2) (by decide)
    · exact absurd (kind.symm.trans (of_mem_checkDocs docs).2) (by decide)
    · exact absurd (kind.symm.trans (of_mem_checkLineLength length).2) (by decide)
    · exact absurd (kind.symm.trans (kind_of_mem_checkCustomRules own custom)) (by decide)
  · rintro (⟨defines, functions⟩ | binding)
    · exact Or.inl ⟨defines, (mem_checkFunction_underscore_iff checks kind).mpr functions⟩
    · exact Or.inr (Or.inl ⟨checks, mem_checkLiteral_underscoreBinding_iff.mpr binding⟩)

/-- Underscores are reported on the lines where values are discarded, and on the line that each
signature has for its first written parameter. -/
theorem reportsUnderscore_iff (own : settings.AddsOwnKind)
    (checks : checksUnderscores settings = true) :
    ReportsUnderscore settings source testPath index ↔
      (∃ line, source.lines[index]? = some line ∧ Discards line) ∨
        ∃ start name, IsDefinedAt source.lines start ∧
          IsReportedFor source.lines start index name := by
  constructor
  · rintro ⟨violation, found, kind, number⟩
    rcases mem_rustFile_iff.mp found with size | ⟨place, line, inTest, stands, _, found⟩
    · exact absurd (kind.symm.trans (of_mem_checkFileSize size).2) (by decide)
    · rcases (mem_checkLine_underscore_iff own checks kind).mp found with
        ⟨defines, located, parameter⟩ | ⟨discards, rfl⟩
      · obtain ⟨index', name, reported, rfl⟩ := mem_checkUnderscoreParameter_iff.mp parameter
        have same : index' = index := Int.ofNat.inj ((Int.add_left_inj 1).mp number)
        exact Or.inr ⟨place, name, ⟨⟨line, stands, defines⟩, located⟩, same ▸ reported⟩
      · have same : place = index := Int.ofNat.inj ((Int.add_left_inj 1).mp number)
        exact Or.inl ⟨line, same ▸ stands, discards⟩
  · rintro (⟨line, stands, discards⟩ | ⟨start, name, ⟨⟨line, stands, defines⟩, located⟩, own'⟩)
    · refine ⟨Rule.underscoreBinding.located source.path index,
        mem_rustFile_of_checkLine stands fun inTest => ?_, rfl, rfl⟩
      exact (mem_checkLine_underscore_iff own checks rfl).mpr (Or.inr ⟨discards, rfl⟩)
    · refine ⟨⟨.underscoreBandaid, source.path, index + 1,
        Rule.underscoreParameter (String.ofList name), .error⟩,
        mem_rustFile_of_checkLine stands fun inTest => ?_, rfl, rfl⟩
      exact (mem_checkLine_underscore_iff own checks rfl).mpr
        (Or.inl ⟨defines, located, mem_checkUnderscoreParameter_iff.mpr ⟨index, name, own', rfl⟩⟩)

/-! ### The parameters in code -/

/-- The codes of the lines of the signature that starts at a line. -/
def signatureCodes (lines : List Line) (start : Nat) : List Line :=
  (Rust.signatureLines (lines.drop start)).map Rust.codeOnly

/-- The code of a signature, its lines joined by one blank. -/
def signatureCode (lines : List Line) (start : Nat) : Line :=
  [' '].intercalate (signatureCodes lines start)

/-- A parameter with an underscore, in the code of the signature that starts at a line, begins on
another line. -/
def BearsParameter (lines : List Line) (start index : Nat) : Prop :=
  ∃ before code after name offset, signatureCodes lines start = before ++ code :: after ∧
    index = start + before.length ∧ offset < code.length ∧
    IsParameterAt (signatureCode lines start) name
      ((before.flatMap (· ++ [' '])).length + offset)

/-- What is not a separator in a joined text lies in one of the texts that are joined. -/
theorem exists_piece_of_getElem? {pieces : List Line} {offset : Nat} {character : Char}
    (solid : character ≠ ' ') (stands : ([' '].intercalate pieces)[offset]? = some character) :
    ∃ before piece after inner, pieces = before ++ piece :: after ∧ inner < piece.length ∧
      offset = (before.flatMap (· ++ [' '])).length + inner := by
  induction pieces generalizing offset with
  | nil => cases stands
  | cons piece rest inductionHypothesis =>
    by_cases here : offset < piece.length
    · exact ⟨[], piece, rest, offset, rfl, here, by simp⟩
    · cases rest with
      | nil =>
        rw [List.intercalate_singleton, List.getElem?_eq_none (Nat.le_of_not_lt here)] at stands
        cases stands
      | cons next rest =>
        obtain ⟨past, rfl⟩ := Nat.exists_eq_add_of_le (Nat.le_of_not_lt here)
        rw [List.intercalate_cons_cons, List.append_assoc,
          List.getElem?_append_right (Nat.le_add_right _ _), Nat.add_sub_cancel_left] at stands
        cases past with
        | zero => exact absurd (Option.some.inj stands).symm solid
        | succ past =>
          obtain ⟨before, own, after, inner, parts, inside, same⟩ := inductionHypothesis stands
          refine ⟨piece :: before, own, after, inner, by rw [parts, List.cons_append], inside, ?_⟩
          rw [List.flatMap_cons, List.length_append, List.length_append, List.length_singleton]
          omega

/-- A signature with a parameter in its code has a line that bears one. -/
theorem exists_bearsParameter_iff :
    Rule.underscoreParameterUse.regex.occursIn (signatureCode lines start) = true ↔
      ∃ index, BearsParameter lines start index := by
  rw [occursIn_parameterUse]
  constructor
  · rintro ⟨name, offset, parameter⟩
    have stands : (signatureCode lines start)[offset]? = some '_' := by
      obtain ⟨more, rfl⟩ := parameter.underscored.begins
      obtain ⟨gap, _, rest, left⟩ := parameter.typed.colon
      exact getElem?_of_drop left.symm
    obtain ⟨before, code, after, inner, parts, inside, rfl⟩ :=
      exists_piece_of_getElem? (by decide) stands
    exact ⟨_, before, code, after, name, inner, parts, rfl, inside, parameter⟩
  · rintro ⟨index, before, code, after, name, offset, _, _, _, parameter⟩
    exact ⟨name, _, parameter⟩

/-- Where underscores are checked, a signature with a parameter in its code is reported on one of
the lines that bear a parameter exactly if such a line is the one for the first parameter that is
written in the signature, comments and literals included, or is reported for another reason: because
a value is discarded there, or for the first parameter that is written in another signature. -/
theorem parameters_reported_iff {table : Table} (readable : (Settings.read table).2 = .ok settings)
    (checks : checksUnderscores settings = true) (defined : IsDefinedAt source.lines start) :
    (Rule.underscoreParameterUse.regex.occursIn (signatureCode source.lines start) = true →
        ∃ index, BearsParameter source.lines start index ∧
          ReportsUnderscore settings source testPath index) ↔
      ((∃ index, BearsParameter source.lines start index) →
        ∃ index, BearsParameter source.lines start index ∧
          ((∃ name, IsReportedFor source.lines start index name) ∨
            (∃ line, source.lines[index]? = some line ∧ Discards line) ∨
            ∃ other name, other ≠ start ∧ IsDefinedAt source.lines other ∧
              IsReportedFor source.lines other index name)) := by
  have own := Settings.addsOwnKind_of_read readable
  rw [exists_bearsParameter_iff]
  refine imp_congr_right fun _ => exists_congr fun index => and_congr_right fun _ => ?_
  rw [reportsUnderscore_iff own checks]
  constructor
  · rintro (discards | ⟨other, name, defined', reported⟩)
    · exact Or.inr (Or.inl discards)
    · by_cases same : other = start
      · exact Or.inl ⟨name, same ▸ reported⟩
      · exact Or.inr (Or.inr ⟨other, name, same, defined', reported⟩)
  · rintro (⟨name, reported⟩ | discards | ⟨other, name, _, defined', reported⟩)
    · exact Or.inr ⟨start, name, defined, reported⟩
    · exact Or.inl discards
    · exact Or.inr ⟨other, name, defined', reported⟩

/-- A function whose one parameter has a line of its own, after a line with a comment. -/
def remarkedFunction (remark : String) : Source :=
  .ofText "src/lib.rs"
    ("fn handle(\n    // " ++ remark ++ "\n    _ctx: Context,\n) \x7b\n\x7d\n").toList

def plainFunction : Source := remarkedFunction "What is known of the request."

theorem isDefinedAt_plainFunction : IsDefinedAt plainFunction.lines 0 := by
  refine ⟨⟨"fn handle(".toList, ?_, ?_⟩, ?_⟩ <;> decide +kernel

theorem parameters_reported_iff_plainFunction :
    (Settings.read []).2 = .ok Settings.standard ∧ checksUnderscores .standard = true ∧
      IsDefinedAt plainFunction.lines 0 ∧
      ((Rule.underscoreParameterUse.regex.occursIn (signatureCode plainFunction.lines 0) = true →
          ∃ index, BearsParameter plainFunction.lines 0 index ∧
            ReportsUnderscore .standard plainFunction none index) ↔
        ((∃ index, BearsParameter plainFunction.lines 0 index) →
          ∃ index, BearsParameter plainFunction.lines 0 index ∧
            ((∃ name, IsReportedFor plainFunction.lines 0 index name) ∨
              (∃ line, plainFunction.lines[index]? = some line ∧ Discards line) ∨
              ∃ other name, other ≠ 0 ∧ IsDefinedAt plainFunction.lines other ∧
                IsReportedFor plainFunction.lines other index name))) := by
  have checks : checksUnderscores .standard = true := by decide
  exact ⟨Settings.read_nil, checks, isDefinedAt_plainFunction,
    parameters_reported_iff Settings.read_nil checks isDefinedAt_plainFunction⟩

def hidingFunction : Source := remarkedFunction "_old: the former parameter"

/-- A comment that mentions another parameter hides the one that stands in the code. -/
theorem not_reported_hidingFunction :
    checksUnderscores .standard = true ∧ IsDefinedAt hidingFunction.lines 0 ∧
      Rule.underscoreParameterUse.regex.occursIn (signatureCode hidingFunction.lines 0) = true ∧
      rustFile .standard hidingFunction none = [] := by
  refine ⟨by decide, ⟨⟨"fn handle(".toList, ?_, ?_⟩, ?_⟩, ?_, ?_⟩ <;> decide +kernel

end Scan

end CrateAudit
