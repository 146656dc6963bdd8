/-
This file says what the status of a check stands for. A check is refused for a reason
that can be seen before any source is read, and then it does nothing else; any other
check ends with whether it has found something. This holds exactly where nothing breaks
the check off: a path that the system fails to look up, settings that cannot be read to
their end, or a text that the console or the output does not accept.
-/

import CrateAudit.Proofs.Agreement
import CrateAudit.Proofs.Consoles
import CrateAudit.Proofs.Findings
import CrateAudit.Proofs.NearestSettings
import CrateAudit.Proofs.ReportCounts

namespace CrateAudit

/-! ### Reports with the standard guidance -/

namespace Guidance

theorem usableText_string_isOk {guidance : Guidance} {fields : Table} {name text : String}
    (found : fields.lookup name = some (.string text)) :
    (guidance.usableText fields name).isOk = true := by
  rw [usableText, found, Option.filter_some]
  split
  · rfl
  · rename_i filled
    split at filled
    · cases filled
      rw [Value.text?_string]
      rfl
    · cases filled

/-- An entry of the standard form answers all that is asked. -/
theorem answers_of_advice {guidance : Guidance} {kind : Kind} {advice : Advice}
    (entry : guidance.entry kind = .ok advice.fields) : guidance.Answers kind where
  suggestion := by
    rw [suggestion, bind_of_ok entry]
    exact congrArg (fun text => (text.mapError Fault.unshown).isOk)
      (Value.text?_string guidance.tooDeep advice.suggestion)
  priority := by
    rw [priority, bind_of_ok entry]
    rfl
  strategy := by
    rw [bind_of_ok entry]
    exact usableText_string_isOk rfl
  sample := by
    rw [bind_of_ok entry]
    exact usableText_string_isOk rfl

theorem standard_answers (kind : Kind) : standard.Answers kind := by
  cases kind <;> exact answers_of_advice rfl

/-- The priorities of the standard guidance are a digit long. -/
theorem standard_priority_short {kind : Kind} {priority : Int}
    (answer : standard.priority kind = .ok priority) : Number.isTooLong priority = false := by
  cases kind <;> cases answer <;> decide

end Guidance

namespace Report

variable {audit : Audit}

theorem exists_standardPrints (audit : Audit) (view : View) :
    ∃ prints, auditPrints .standard audit view = .ok prints := by
  by_cases found : audit.violations = []
  · rw [auditPrints, found]
    exact ⟨_, rfl⟩
  · have answers : ∀ count ∈ audit.summary.counts, Guidance.standard.Answers count.1 :=
      fun count _ => Guidance.standard_answers count.1
    obtain ⟨rows, tabled, ranked, _⟩ := exists_kindRows answers
    obtain ⟨grid, laid, _⟩ := exists_kindGrid fun row member =>
      Guidance.standard_priority_short (ranked row member)
    cases view with
    | byKind =>
      obtain ⟨rest, printed⟩ := exists_auditPrints found .byKind
        ((bind_of_ok tabled _).trans laid)
      exact ⟨_, printed⟩
    | byFile =>
      exact (exists_auditPrints found .byFile rfl).imp' _ fun _ => id

theorem exists_standardJson (audit : Audit) {analyses : List Analysis}
    (ranked : ∀ analysis ∈ analyses,
      Guidance.standard.priority analysis.violation.kind = .ok analysis.priority) (time : String) :
    ∃ text, json .standard audit (some analyses) time = .ok text := by
  have each (priority : Int) (member : priority ∈ analyses.map (·.priority)) :
      ∃ text, Guidance.priorityText priority = .ok text ∧ True := by
    obtain ⟨analysis, inside, rfl⟩ := List.mem_map.mp member
    rw [Guidance.priorityText, Guidance.standard_priority_short (ranked analysis inside)]
    exact ⟨_, rfl, trivial⟩
  obtain ⟨texts, shown, _⟩ := exists_mapM_eq_ok each
  obtain ⟨report, made⟩ : ∃ report, document .standard audit (some analyses) time = .ok report :=
    ⟨_, rfl⟩
  have known : priorities .standard audit (some analyses) = .ok (analyses.map (·.priority)) := rfl
  refine ⟨report.render 0, ?_⟩
  rw [json, bind_of_ok made, bind_of_ok known, bind_of_ok shown]
  rfl

theorem exists_standardMarkdown (counted : audit.summary.Counts audit.violations)
    (analyses : Option (List Analysis)) (time : String) :
    ∃ text, markdown .standard audit analyses time = .ok text := by
  by_cases found : audit.violations = []
  · have compliant : audit.summary.isCompliant = true := by
      rw [Summary.isCompliant, counted.total, found]
      rfl
    rw [markdown, if_pos compliant]
    exact ⟨_, rfl⟩
  · have distinct : (Guidance.standard.entries.map (·.1)).Nodup := by decide
    obtain ⟨keys, ranks⟩ : ∃ keys, Guidance.standard.priorityOrder = .ok keys :=
      exists_of_isOk (by decide)
    obtain ⟨order, ordered, perm⟩ := exists_sectionOrder counted.once distinct ranks
    obtain ⟨_, _, _, _, written⟩ := exists_markdown counted found ordered perm
      fun count _ => Guidance.standard_answers count.1
    exact ⟨_, written analyses time⟩

end Report

/-- A disk of which other sources may not be read. -/
def Disk.denying (disk : Disk) (denied : List (List String)) : Disk :=
  { disk with unreadable := denied }

namespace Command

open Project (requestedTable? requestedSettings? LacksSettings ConfigurationStops)

/-! ### What is asked of a check -/

namespace CheckOptions

/-- The name of the target. -/
def targetName (options : CheckOptions) : String :=
  (Path.ofText options.target).text

/-- The name of the file that is to hold the settings. -/
def fileName (options : CheckOptions) : Option String :=
  options.settingsFile.map fun name => (Path.ofText name).text

end CheckOptions

/-- A session with the guidance that comes with the audit. -/
def Session.standard (disk : Disk) (host : Host) (time : String) : Session :=
  ⟨disk, .standard, time, host⟩

/-- Whether a check names a format and a view that there are. -/
structure IsWellFormed (options : CheckOptions) : Prop where
  format : (formatNamed? options.format).isSome = true
  view : (viewNamed? options.view).isSome = true

/-- Whether a check is well formed and finds its target. -/
structure IsAddressed (disk : Disk) (options : CheckOptions) : Prop extends
    IsWellFormed options where
  reached : disk.barred (.ofText options.target) = none
  target : disk.pathExists (.ofText options.target) = true

/-- Why a check is to be refused. -/
inductive IsRefused (disk : Disk) (host : Host) (options : CheckOptions) : Prop
  | format (unknown : formatNamed? options.format = none)
  | view (unknown : viewNamed? options.view = none)
  | target (missing : disk.pathExists (.ofText options.target) = false)
  | settings (lacks : LacksSettings disk host.interpreter options.targetName options.fileName
      options.workers)

/-- What is taken for granted: a document that is written to a file arrives there. -/
def OutputArrives (disk : Disk) (host : Host) (options : CheckOptions) : Prop :=
  ¬ IsRefused disk host options → formatNamed? options.format ≠ some .terminal →
    ∀ name, options.output = some name →
      ∀ text, (disk.writeText (.ofText name) text).isOk = true

/-- What breaks a check off: the system fails to look up its target, something stops it before it
has settings, the system fails to look up the place that the target leads to, or the host does not
accept a text that the check puts out. -/
inductive BreaksOff (disk : Disk) (host : Host) (time : String) (options : CheckOptions) : Prop
  | target (formed : IsWellFormed options) (cause : SystemFault)
    (barred : disk.barred (.ofText options.target) = some cause)
  | settings (addressed : IsAddressed disk options)
    (stops : ConfigurationStops disk host.interpreter options.targetName options.fileName)
  | root (reached : disk.barred (.ofText options.target) = none)
    (accepted : ¬ IsRefused disk host options) (cause : SystemFault)
    (barred : disk.barred (disk.resolve (.ofText options.targetName)) = some cause)
  | text (rejected : ¬ Accepts host (check (.standard disk host.indulgent time) options))

variable {disk : Disk} {host : Host} {options : CheckOptions} (time : String)

/-! ### The report does not break a check off -/

theorem Outcome.keeps_tellAll_indulgent (notices : List Notice) (outcome : Outcome) :
    (outcome.tellAll host.indulgent notices).ending = outcome.ending ∧
      (outcome.tellAll host.indulgent notices).disk = outcome.disk := by
  induction notices generalizing outcome with
  | nil => exact ⟨rfl, rfl⟩
  | cons notice rest inductionHypothesis =>
    rw [tellAll, List.foldl_cons, tell_indulgent]
    have here : (outcome.andThen fun outcome =>
        { outcome with notices := outcome.notices ++ [notice] }).ending = outcome.ending ∧
        (outcome.andThen fun outcome =>
          { outcome with notices := outcome.notices ++ [notice] }).disk = outcome.disk := by
      cases ends : outcome.ending with
      | broken cause => rw [andThen_of_broken ends]; exact ⟨ends, rfl⟩
      | status code => rw [andThen_of_status ends]; exact ⟨ends, rfl⟩
    obtain ⟨ending, disk⟩ := inductionHypothesis (outcome.andThen fun outcome =>
      { outcome with notices := outcome.notices ++ [notice] })
    exact ⟨ending.trans here.1, disk.trans here.2⟩

theorem Outcome.ending_printAll_indulgent (prints : List Report.Printed) (outcome : Outcome) :
    (outcome.printAll host.indulgent prints).ending = outcome.ending := by
  induction prints generalizing outcome with
  | nil => rfl
  | cons printed rest inductionHypothesis =>
    rw [printAll, List.foldl_cons, print_indulgent]
    refine (inductionHypothesis _).trans ?_
    cases ends : outcome.ending with
    | broken cause => rw [andThen_of_broken ends]; exact ends
    | status code => rw [andThen_of_status ends]; exact ends

theorem exists_document_standard (disk : Disk) (host : Host) {audit : Audit}
    (counted : audit.summary.Counts audit.violations) (format : Format) (withContext : Bool) :
    ∃ text, document (.standard disk host time) format withContext audit = .ok text := by
  obtain ⟨analyses, analysed, _, known⟩ :=
    Analysis.ofViolations_standard audit.sources withContext audit.violations
  obtain ⟨text, written⟩ := Report.exists_standardMarkdown counted (some analyses) time
  cases format with
  | json =>
    obtain ⟨text, written⟩ := Report.exists_standardJson audit (fun analysis member =>
      (known analysis member).1) time
    exact ⟨text, by rw [document, Session.standard, analysed]; exact written⟩
  | terminal | markdown =>
    exact ⟨text, by rw [document, Session.standard, analysed]; exact written⟩

theorem ending_report (arrives : OutputArrives disk host options)
    (accepted : ¬ IsRefused disk host options) {format : Format}
    (formatted : formatNamed? options.format = some format) {audit : Audit}
    (counted : audit.summary.Counts audit.violations) (view : Report.View)
    {outcome : Outcome} (same : outcome.disk = disk) {code : Nat}
    (ends : outcome.ending = .status code) :
    (report (.standard disk host.indulgent time) options format view audit outcome).ending =
      .status code := by
  have emitted (shown : format ≠ .terminal) (text : String) :
      (emit host.indulgent text options.output outcome).ending = .status code := by
    have shown' : formatNamed? options.format ≠ some .terminal :=
      fun other => shown (Option.some.inj (formatted.symm.trans other))
    cases named : options.output with
    | none =>
      rw [emit, Outcome.write_indulgent, Outcome.andThen_of_status ends]
      exact ends
    | some name =>
      obtain ⟨written, arrived⟩ := exists_of_isOk
        (arrives accepted shown' name named text.toList)
      have ends' : ({ outcome with disk := written } : Outcome).ending = .status code := ends
      rw [emit, Outcome.andThen_of_status ends, same, arrived]
      dsimp only
      rw [Outcome.tell_indulgent, Outcome.andThen_of_status ends']
      exact ends
  obtain ⟨text, written⟩ := exists_document_standard time disk host.indulgent counted format
    options.withContext
  cases format with
  | terminal =>
    obtain ⟨prints, printed⟩ := Report.exists_standardPrints audit view
    rw [report, Session.standard, printed]
    exact (Outcome.ending_printAll_indulgent prints outcome).trans ends
  | json | markdown =>
    rw [report, written]
    exact emitted (by simp) text

/-! ### How a check ends -/

/-- What a check has led to when the settings have been looked for. -/
def greeted (format : Format) (warnings : List Settings.Warning) (disk : Disk) : Outcome :=
  ⟨if format = .terminal then [.greeting] else [], warnings, [], [], disk,
    .status compliantStatus⟩

/-- A check that finds its target goes on with what the search for settings gives. -/
theorem check_of_isAddressed (host : Host) {format : Format} {view : Report.View}
    (formatted : formatNamed? options.format = some format)
    (viewed : viewNamed? options.view = some view)
    (addressed : IsAddressed disk options) :
    check (.standard disk host.indulgent time) options =
      let configured := Project.configure disk host.interpreter options.targetName
        options.fileName options.workers
      match configured.2 with
      | .error cause =>
        endWithoutSettings host.indulgent cause (greeted format configured.1 disk)
      | .ok settings =>
        checkWith (.standard disk host.indulgent time) options format view options.targetName
          settings (greeted format configured.1 disk) := by
  have start : (if format = .terminal then
        (Outcome.start disk).tell host.indulgent .greeting else Outcome.start disk) =
      greeted format [] disk := by
    cases format <;> rfl
  rw [check, formatted, viewed]
  dsimp only [Session.standard]
  rw [Outcome.reaching, addressed.reached]
  dsimp only
  rw [checkTarget]
  simp only [addressed.target, Bool.not_true, Bool.false_eq_true, if_false]
  rw [start, withSettings, CheckOptions.targetName, CheckOptions.fileName]
  dsimp only [Host.indulgent]
  generalize Project.configure disk _ _ _ _ = configured
  obtain ⟨warnings, result⟩ := configured
  cases result <;> rfl

theorem firstTable_denying (disk : Disk) (interpreter : Interpreter) (denied : List (List String))
    (places : List (List String)) :
    Project.firstTable (disk.denying denied) interpreter places =
      Project.firstTable disk interpreter places := by
  induction places with
  | nil => rfl
  | cons place rest inductionHypothesis =>
    rw [Project.firstTable, Project.firstTable, inductionHypothesis]
    rfl

/-- What may not be read of the sources does not matter to the search for settings. -/
theorem configure_denying (disk : Disk) (interpreter : Interpreter) (denied : List (List String))
    (target : String) (file : Option String) (workers : Option Int) :
    Project.configure (disk.denying denied) interpreter target file workers =
      Project.configure disk interpreter target file workers := by
  have found : Project.foundTable (disk.denying denied) interpreter target file =
      Project.foundTable disk interpreter target file := by
    cases file with
    | some name => rfl
    | none =>
      rw [Project.foundTable, Project.foundTable, Project.nearestTable, Project.nearestTable,
        firstTable_denying]
      rfl
  rw [Project.configure, Project.configure, found]

theorem endWithoutSettings_of_told {cause : ConfigurationFault} (told : cause.isBreakdown = false)
    (host : Host) (outcome : Outcome) :
    endWithoutSettings host cause outcome = outcome.refuse host (.configuration cause) := by
  rw [endWithoutSettings, told]
  rfl

/-- A check tells why it is refused and does nothing else, whatever may be read: it shows no report
and leaves the disk as it is. -/
def OnlyRefuses (disk : Disk) (host : Host) (time : String) (options : CheckOptions) : Prop :=
  ∃ notices warnings,
    (∀ notice ∈ notices, notice = .greeting ∨ ∃ cause, notice = .refused cause) ∧
      ∀ denied, check (.standard (disk.denying denied) host time) options =
        ⟨notices, warnings, [], [], disk.denying denied, .status refusedStatus⟩

/-- A check without settings is refused. -/
theorem onlyRefuses_of_lacksSettings (addressed : IsAddressed disk options)
    (clear : ¬ ConfigurationStops disk host.interpreter options.targetName options.fileName)
    (lacks : LacksSettings disk host.interpreter options.targetName options.fileName
      options.workers) :
    OnlyRefuses disk host.indulgent time options := by
  obtain ⟨format, formatted⟩ := Option.isSome_iff_exists.mp addressed.format
  obtain ⟨view, viewed⟩ := Option.isSome_iff_exists.mp addressed.view
  obtain ⟨cause, configured, told⟩ := Project.configure_of_lacksSettings clear lacks
  refine ⟨(if format = .terminal then [.greeting] else []) ++ [.refused (.configuration cause)],
    (Project.configure disk host.interpreter options.targetName options.fileName
      options.workers).1, ?_, fun denied => ?_⟩
  · cases format <;> simp
  · have addressed' : IsAddressed (disk.denying denied) options :=
      ⟨addressed.toIsWellFormed, addressed.reached, addressed.target⟩
    rw [check_of_isAddressed time host formatted viewed addressed']
    simp only [configure_denying, configured, endWithoutSettings_of_told told]
    cases format <;> rfl

/-- A check that is to be refused is refused. -/
theorem onlyRefuses_of_isRefused
    (reached : IsWellFormed options → disk.barred (.ofText options.target) = none)
    (clear : IsAddressed disk options →
      ¬ ConfigurationStops disk host.interpreter options.targetName options.fileName)
    (refused : IsRefused disk host options) : OnlyRefuses disk host.indulgent time options := by
  cases formatted : formatNamed? options.format with
  | none =>
    refine ⟨[.refused (.unknownFormat options.format)], [], by simp, fun denied => ?_⟩
    rw [check, formatted]
    rfl
  | some format =>
    cases viewed : viewNamed? options.view with
    | none =>
      refine ⟨[.refused (.unknownView options.view)], [], by simp, fun denied => ?_⟩
      rw [check, formatted, viewed]
      rfl
    | some view =>
      have formed : IsWellFormed options := ⟨by rw [formatted]; rfl, by rw [viewed]; rfl⟩
      cases there : disk.pathExists (.ofText options.target) with
      | false =>
        refine ⟨[.refused (.targetMissing options.targetName)], [], by simp, fun denied => ?_⟩
        have looked : (disk.denying denied).barred (.ofText options.target) = none :=
          reached formed
        have missing : (disk.denying denied).pathExists (.ofText options.target) = false := there
        rw [check, formatted, viewed]
        dsimp only [Session.standard]
        rw [Outcome.reaching, looked]
        dsimp only
        rw [checkTarget]
        dsimp only
        rw [missing]
        rfl
      | true =>
        have addressed : IsAddressed disk options := ⟨formed, reached formed, there⟩
        cases refused with
        | format unknown => cases formatted.symm.trans unknown
        | view unknown => cases viewed.symm.trans unknown
        | target missing => cases there.symm.trans missing
        | settings lacks =>
          exact onlyRefuses_of_lacksSettings time addressed (clear addressed) lacks

theorem IsWellFormed.of_accepted (accepted : ¬ IsRefused disk host options) :
    IsWellFormed options where
  format := Option.isSome_iff_ne_none.mpr fun unknown => accepted (.format unknown)
  view := Option.isSome_iff_ne_none.mpr fun unknown => accepted (.view unknown)

theorem IsAddressed.of_accepted (accepted : ¬ IsRefused disk host options)
    (reached : disk.barred (.ofText options.target) = none) : IsAddressed disk options where
  toIsWellFormed := .of_accepted accepted
  reached := reached
  target := (Bool.not_eq_false _).mp fun missing => accepted (.target missing)

theorem counts_audit (settings : Settings) (disk : Disk) (target : String) :
    (Project.audit settings disk target).2.summary.Counts
      (Project.audit settings disk target).2.violations := by
  rw [Project.audit_eq]
  exact Summary.counts_ofViolations _ _

theorem auditStatus_eq {audit : Audit} (counted : audit.summary.Counts audit.violations) :
    auditStatus audit =
      if audit.violations = [] then compliantStatus else violationsStatus := by
  rw [auditStatus, Summary.isCompliant, counted.total]
  simp

theorem ending_checkWith (arrives : OutputArrives disk host options)
    (accepted : ¬ IsRefused disk host options) {format : Format}
    (formatted : formatNamed? options.format = some format) (view : Report.View)
    (settings : Settings)
    (reached : disk.barred (disk.resolve (.ofText options.targetName)) = none)
    {outcome : Outcome} (same : outcome.disk = disk)
    (ends : outcome.ending = .status compliantStatus) :
    (checkWith (.standard disk host.indulgent time) options format view options.targetName settings
        outcome).ending =
      .status (if (Project.audit settings disk options.targetName).2.violations = []
        then compliantStatus else violationsStatus) := by
  have counted := counts_audit settings disk options.targetName
  rw [← auditStatus_eq counted, checkWith]
  dsimp only [Session.standard]
  rw [Outcome.reaching, reached]
  dsimp only
  obtain ⟨told, kept⟩ := Outcome.keeps_tellAll_indulgent
    (Project.audit settings disk options.targetName).1 outcome
  have reported := ending_report time arrives accepted formatted counted view (kept.trans same)
    (told.trans ends)
  rw [Outcome.finish, Outcome.endWith]
  rw [Session.standard] at reported
  rw [Outcome.andThen_of_status reported]

/-- A check that is not to be refused ends with whether it has found something. -/
theorem ending_check_of_accepted (arrives : OutputArrives disk host options)
    (addressed : IsAddressed disk options)
    (clear : ¬ ConfigurationStops disk host.interpreter options.targetName options.fileName)
    (reached : disk.barred (disk.resolve (.ofText options.targetName)) = none)
    (accepted : ¬ IsRefused disk host options) :
    ∃ settings,
      requestedSettings? disk host.interpreter options.targetName options.fileName
        options.workers = some settings ∧
      (check (.standard disk host.indulgent time) options).ending =
        .status (if (Project.audit settings disk options.targetName).2.violations = []
          then compliantStatus else violationsStatus) := by
  obtain ⟨format, formatted⟩ := Option.isSome_iff_exists.mp addressed.format
  obtain ⟨view, viewed⟩ := Option.isSome_iff_exists.mp addressed.view
  obtain ⟨settings, requested, configured⟩ :=
    Project.configure_of_not_lacksSettings clear fun lacks => accepted (.settings lacks)
  refine ⟨settings, requested, ?_⟩
  rw [check_of_isAddressed time host formatted viewed addressed]
  simp only [configured]
  exact ending_checkWith time arrives accepted formatted view settings reached rfl rfl

/-! ### How a check breaks off -/

theorem Follows.exists_broken_of_broken {strict free : Outcome} (follows : Follows host strict free)
    (broken : ∃ cause, free.ending = .broken cause) : ∃ cause, strict.ending = .broken cause := by
  cases follows with
  | same equal _ => exact equal ▸ broken
  | cut text cut _ => exact ⟨_, cut⟩

/-- A check that finds its target breaks off where something stops it before it has settings. -/
theorem exists_broken_of_configurationStops (addressed : IsAddressed disk options)
    (stops : ConfigurationStops disk host.interpreter options.targetName options.fileName) :
    ∃ cause, (check (.standard disk host.indulgent time) options).ending = .broken cause := by
  obtain ⟨format, formatted⟩ := Option.isSome_iff_exists.mp addressed.format
  obtain ⟨view, viewed⟩ := Option.isSome_iff_exists.mp addressed.view
  obtain ⟨cause, configured, breaks⟩ := Project.configure_of_configurationStops stops options.workers
  rw [check_of_isAddressed time host formatted viewed addressed]
  simp only [configured]
  rw [endWithoutSettings, if_pos breaks]
  exact Outcome.exists_broken_break_ _ _

/-- A check breaks off for each of the reasons there are. -/
theorem exists_broken_of_breaksOff (breaks : BreaksOff disk host time options) :
    ∃ cause, (check (.standard disk host time) options).ending = .broken cause := by
  have follows : Follows host (check (.standard disk host time) options)
      (check (.standard disk host.indulgent time) options) :=
    follows_check (.standard disk host time) options
  cases breaks with
  | text rejected => exact follows.exists_broken rejected
  | target formed cause barred =>
    obtain ⟨format, formatted⟩ := Option.isSome_iff_exists.mp formed.format
    obtain ⟨view, viewed⟩ := Option.isSome_iff_exists.mp formed.view
    rw [check, formatted, viewed]
    dsimp only [Session.standard]
    rw [Outcome.reaching, barred]
    exact Outcome.exists_broken_break_ _ _
  | settings addressed stops =>
    exact follows.exists_broken_of_broken (exists_broken_of_configurationStops time addressed stops)
  | root reached accepted cause barred =>
    have addressed : IsAddressed disk options := .of_accepted accepted reached
    by_cases stops :
        ConfigurationStops disk host.interpreter options.targetName options.fileName
    · exact follows.exists_broken_of_broken
        (exists_broken_of_configurationStops time addressed stops)
    · obtain ⟨format, formatted⟩ := Option.isSome_iff_exists.mp addressed.format
      obtain ⟨view, viewed⟩ := Option.isSome_iff_exists.mp addressed.view
      obtain ⟨settings, _, configured⟩ :=
        Project.configure_of_not_lacksSettings stops fun lacks => accepted (.settings lacks)
      refine follows.exists_broken_of_broken ?_
      rw [check_of_isAddressed time host formatted viewed addressed]
      simp only [configured]
      rw [checkWith]
      dsimp only [Session.standard]
      rw [Outcome.reaching, barred]
      exact Outcome.exists_broken_break_ _ _

/-! ### What the status stands for -/

/-- The status of a check can be relied on: there always is one; it is that of a refusal exactly
where the check is to be refused, which then tells why and does nothing else, whatever may be read;
and otherwise it says whether the audit with the settings asked for has found something. -/
structure ExitsAsDocumented (disk : Disk) (host : Host) (time : String)
    (options : CheckOptions) : Prop where
  ends : ∀ cause, (check (.standard disk host time) options).ending ≠ .broken cause
  refused_iff : (check (.standard disk host time) options).ending = .status refusedStatus ↔
    IsRefused disk host options
  idle : IsRefused disk host options → OnlyRefuses disk host time options
  audited : ¬ IsRefused disk host options → ∃ settings,
    requestedSettings? disk host.interpreter options.targetName options.fileName
      options.workers = some settings ∧
      (check (.standard disk host time) options).ending =
        .status (if (Project.audit settings disk options.targetName).2.violations = []
          then compliantStatus else violationsStatus)

/-- A host that accepts what an indulgent one is told accepts it whatever may be read. -/
theorem OnlyRefuses.of_accepts (refuses : OnlyRefuses disk host.indulgent time options)
    (accepted : Accepts host (check (.standard disk host.indulgent time) options)) :
    OnlyRefuses disk host time options := by
  obtain ⟨notices, warnings, only, same⟩ := refuses
  refine ⟨notices, warnings, only, fun denied => ?_⟩
  have here : check (.standard disk host.indulgent time) options = _ := same disk.unreadable
  rw [here] at accepted
  have follows : Follows host (check (.standard (disk.denying denied) host time) options)
      (check (.standard (disk.denying denied) host.indulgent time) options) :=
    follows_check (.standard (disk.denying denied) host time) options
  rw [same denied] at follows
  exact follows.eq_of_accepts ⟨accepted.notices, accepted.prints, accepted.output⟩

section

variable {time} (whole : ¬ BreaksOff disk host time options)
include whole

theorem accepts_of_whole :
    Accepts host (check (.standard disk host.indulgent time) options) :=
  not_not.mp fun rejected => whole (.text rejected)

/-- A host that accepts all there is to tell does not change a check. -/
theorem check_eq_of_whole : check (.standard disk host time) options =
    check (.standard disk host.indulgent time) options :=
  (follows_check (.standard disk host time) options).eq_of_accepts (accepts_of_whole whole)

theorem reached_of_whole (formed : IsWellFormed options) :
    disk.barred (.ofText options.target) = none :=
  Option.eq_none_iff_forall_ne_some.mpr fun cause barred => whole (.target formed cause barred)

theorem clear_of_whole (addressed : IsAddressed disk options) :
    ¬ ConfigurationStops disk host.interpreter options.targetName options.fileName :=
  fun stops => whole (.settings addressed stops)

theorem onlyRefuses_of_whole (refused : IsRefused disk host options) :
    OnlyRefuses disk host time options :=
  (onlyRefuses_of_isRefused time (reached_of_whole whole) (clear_of_whole whole) refused).of_accepts
    time (accepts_of_whole whole)

theorem ending_of_whole (arrives : OutputArrives disk host options)
    (accepted : ¬ IsRefused disk host options) : ∃ settings,
      requestedSettings? disk host.interpreter options.targetName options.fileName
        options.workers = some settings ∧
      (check (.standard disk host time) options).ending =
        .status (if (Project.audit settings disk options.targetName).2.violations = []
          then compliantStatus else violationsStatus) := by
  have near := reached_of_whole whole (.of_accepted accepted)
  have addressed := IsAddressed.of_accepted accepted near
  have root : disk.barred (disk.resolve (.ofText options.targetName)) = none :=
    Option.eq_none_iff_forall_ne_some.mpr fun cause barred =>
      whole (.root near accepted cause barred)
  rw [check_eq_of_whole whole]
  exact ending_check_of_accepted time arrives addressed (clear_of_whole whole addressed) root
    accepted

end

/-- The status of a check can be relied on exactly if nothing breaks it off. -/
theorem exitsAsDocumented_iff (arrives : OutputArrives disk host options) :
    ExitsAsDocumented disk host time options ↔ ¬ BreaksOff disk host time options := by
  constructor
  · intro documented breaks
    obtain ⟨cause, broken⟩ := exists_broken_of_breaksOff time breaks
    exact documented.ends cause broken
  · intro whole
    have refused (asked : IsRefused disk host options) :
        (check (.standard disk host time) options).ending = .status refusedStatus := by
      obtain ⟨notices, warnings, _, outcome⟩ := onlyRefuses_of_whole whole asked
      exact congrArg Outcome.ending (outcome disk.unreadable)
    constructor
    case ends =>
      intro cause broken
      by_cases asked : IsRefused disk host options
      · cases (refused asked).symm.trans broken
      · obtain ⟨settings, _, ending⟩ := ending_of_whole whole arrives asked
        cases ending.symm.trans broken
    case refused_iff =>
      refine ⟨fun ending => ?_, refused⟩
      by_contra passes
      obtain ⟨settings, _, other⟩ := ending_of_whole whole arrives passes
      rw [ending] at other
      split at other <;> cases other
    case idle => exact onlyRefuses_of_whole whole
    case audited => exact ending_of_whole whole arrives

/-- A disk with a library and a manifest above it. -/
def manifestDisk (manifest : Bytes) : Disk where
  tree := .directory [("Cargo.toml", .file manifest),
    ("src", .directory [("lib.rs", .file (Text.encode "fn f() \x7b\x7d\n".toList))])]
  workingDirectory := []
  unreadable := []
  unwritable := []

/-- A check of the directory one is in, with a document to be shown. -/
def plainOptions : CheckOptions :=
  ⟨".", "json", "by_kind", none, none, false, none⟩

section

variable {manifest : Bytes}

theorem isAddressed_manifestDisk : IsAddressed (manifestDisk manifest) plainOptions where
  format := rfl
  view := rfl
  reached := rfl
  target := rfl

theorem outputArrives_manifestDisk :
    OutputArrives (manifestDisk manifest) .plain plainOptions := by
  intro _ _ name named
  cases named

theorem requestedTable?_manifestDisk {table : Table}
    (bare : Project.firstSettings (manifestDisk manifest) .plain [[]] = [])
    (requested : requestedTable? (manifestDisk manifest) Host.plain.interpreter
      plainOptions.targetName plainOptions.fileName = some table) : table = [] :=
  (Option.some.inj requested).symm.trans bare

theorem not_isRefused_manifestDisk
    (bare : Project.firstSettings (manifestDisk manifest) .plain [[]] = []) :
    ¬ IsRefused (manifestDisk manifest) .plain plainOptions := by
  rintro (unknown | unknown | missing | ⟨_, named, _⟩ | ⟨table, requested, fault, refused, _⟩ |
    ⟨_, asked, _⟩)
  · cases unknown
  · cases unknown
  · cases missing
  · cases named
  · rw [requestedTable?_manifestDisk bare requested, Settings.read_nil] at refused
    cases refused
  · cases asked

theorem not_breaksOff_manifestDisk
    (bare : Project.firstSettings (manifestDisk manifest) .plain [[]] = [])
    (found : (Project.foundTable (manifestDisk manifest) .plain "." none).isOk = true) :
    ¬ BreaksOff (manifestDisk manifest) .plain "" plainOptions := by
  rintro (⟨_, _, barred⟩ | ⟨_, stops | ⟨table, requested, fault, read, _⟩⟩ | ⟨_, _, _, barred⟩ |
    rejected)
  · cases barred
  · obtain ⟨cause, stopped, _⟩ := Project.searchStops_iff.mp stops
    obtain ⟨table, searched⟩ := exists_of_isOk found
    cases searched.symm.trans stopped
  · rw [requestedTable?_manifestDisk bare requested, Settings.read_nil] at read
    cases read
  · cases barred
  · exact rejected ⟨fun _ _ _ _ => rfl, fun _ _ _ _ => rfl, fun _ _ => rfl⟩

end

/-- A manifest that is text but no document is passed over. -/
theorem exitsAsDocumented_iff_malformed :
    (Toml.readBytes [0x5b]).isOk = false ∧
      OutputArrives (manifestDisk [0x5b]) .plain plainOptions ∧
      ¬ BreaksOff (manifestDisk [0x5b]) .plain "" plainOptions ∧
      ExitsAsDocumented (manifestDisk [0x5b]) .plain "" plainOptions := by
  have bare : Project.firstSettings (manifestDisk [0x5b]) .plain [[]] = [] :=
    List.isEmpty_iff.mp (by decide +kernel)
  have whole : ¬ BreaksOff (manifestDisk [0x5b]) .plain "" plainOptions :=
    not_breaksOff_manifestDisk bare (by decide +kernel)
  exact ⟨by decide +kernel, outputArrives_manifestDisk, whole,
    (exitsAsDocumented_iff "" outputArrives_manifestDisk).mpr whole⟩

/-- A manifest that is no text breaks off a check that nothing stands against. -/
theorem not_exitsAsDocumented_undecodable :
    OutputArrives (manifestDisk [0xff]) .plain plainOptions ∧
      ¬ IsRefused (manifestDisk [0xff]) .plain plainOptions ∧
      ¬ ExitsAsDocumented (manifestDisk [0xff]) .plain "" plainOptions := by
  have bare : Project.firstSettings (manifestDisk [0xff]) .plain [[]] = [] :=
    List.isEmpty_iff.mp (by decide +kernel)
  have stopped : Project.IsStopped (manifestDisk [0xff]) .plain [] :=
    .obstructed [0xff] rfl (.notUtf8 (by decide +kernel))
  have stops : ConfigurationStops (manifestDisk [0xff]) Host.plain.interpreter
      plainOptions.targetName plainOptions.fileName :=
    .search (.manifest rfl ⟨[], [], [], rfl, by simp, stopped⟩)
  refine ⟨outputArrives_manifestDisk, not_isRefused_manifestDisk bare, fun documented => ?_⟩
  have breaks : BreaksOff (manifestDisk [0xff]) .plain "" plainOptions :=
    .settings isAddressed_manifestDisk stops
  obtain ⟨cause, broken⟩ := exists_broken_of_breaksOff "" breaks
  exact documented.ends cause broken

end Command

end CrateAudit
