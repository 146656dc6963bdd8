/-
This file says which settings a run goes by. Without a file of its own it takes those of
the nearest manifest that has any, passing over manifests that cannot be opened or are no
documents. It does so exactly if nothing stops it on the way: a path that the system
fails to look up, bytes that cannot be read to their end, or a value without a text.
-/

import CrateAudit.Project.Configuration
import CrateAudit.Proofs.FallibleSteps
import CrateAudit.Proofs.ReadSettings

namespace CrateAudit

namespace Toml

/-- What keeps the program from reading bytes as a document: they are no text in UTF-8, the text is
nested too deeply, or a number in it has too many digits. -/
inductive IsObstructed (tooDeep : List Char → Bool) (bytes : Bytes) : Prop
  | notUtf8 (dark : Text.decodeStrict? bytes = none)
  | nested (text : List Char) (decoded : Text.decodeStrict? bytes = some text)
    (deep : tooDeep text = true)
  | digits (text : List Char) (decoded : Text.decodeStrict? bytes = some text) (count : Nat)
    (long : read text = .error (.tooManyDigits count))

variable {tooDeep : List Char → Bool} {bytes : Bytes}

theorem mapError_ofFault_eq_obstacle {result : Except Fault Table} :
    (∃ cause, result.mapError FileFault.ofFault = .error (.obstacle cause)) ↔
      ∃ count, result = .error (.tooManyDigits count) := by
  cases result with
  | ok table => exact iff_of_false (fun ⟨_, same⟩ => by cases same) (fun ⟨_, same⟩ => by cases same)
  | error fault =>
    cases fault with
    | tooManyDigits count => exact iff_of_true ⟨_, rfl⟩ ⟨_, rfl⟩
    | _ => exact iff_of_false (fun ⟨_, same⟩ => by cases same) (fun ⟨_, same⟩ => by cases same)

theorem isObstructed_iff :
    IsObstructed tooDeep bytes ↔ ∃ cause, readBytes bytes tooDeep = .error (.obstacle cause) := by
  rw [readBytes]
  cases decoded : Text.decodeStrict? bytes with
  | none => exact iff_of_true (.notUtf8 decoded) ⟨_, rfl⟩
  | some text =>
    by_cases deep : tooDeep text = true
    · simp only [deep, if_true]
      exact iff_of_true (.nested text decoded deep) ⟨_, rfl⟩
    · simp only [deep, if_false, Bool.false_eq_true]
      rw [mapError_ofFault_eq_obstacle]
      constructor
      · rintro (dark | ⟨other, same, deep'⟩ | ⟨other, same, count, long⟩)
        · cases decoded.symm.trans dark
        · cases decoded.symm.trans same
          exact absurd deep' deep
        · cases decoded.symm.trans same
          exact ⟨count, long⟩
      · rintro ⟨count, long⟩
        exact .digits text decoded count long

end Toml

namespace Project

variable {disk : Disk} {interpreter : Interpreter}

/-! ### The manifest of a directory -/

/-- What stops the search at a directory: the system fails to look up whether there is a manifest,
or the manifest can be opened but not read to its end. -/
inductive IsStopped (disk : Disk) (interpreter : Interpreter) (place : List String) : Prop
  | barred (cause : SystemFault) (barred : disk.barred (manifestPath place) = some cause)
  | obstructed (bytes : Bytes) (opened : manifestBytes? disk place = some bytes)
    (obstructed : Toml.IsObstructed interpreter.tooDeepToRead bytes)

theorem isStopped_iff {place : List String} :
    IsStopped disk interpreter place ↔
      ∃ cause, tableAt disk interpreter place = .error cause := by
  rw [tableAt]
  cases looked : disk.barred (manifestPath place) with
  | some cause => exact iff_of_true (.barred cause looked) ⟨_, rfl⟩
  | none =>
    have shape : IsStopped disk interpreter place ↔ ∃ bytes,
        manifestBytes? disk place = some bytes ∧
          Toml.IsObstructed interpreter.tooDeepToRead bytes := by
      constructor
      · rintro (⟨cause, barred⟩ | ⟨bytes, opened, obstructed⟩)
        · cases looked.symm.trans barred
        · exact ⟨bytes, opened, obstructed⟩
      · rintro ⟨bytes, opened, obstructed⟩
        exact .obstructed bytes opened obstructed
    rw [shape]
    cases manifestBytes? disk place with
    | none => simp
    | some bytes =>
      simp only [Option.some.injEq, exists_eq_left', Toml.isObstructed_iff, Option.map_some]
      cases Toml.readBytes bytes interpreter.tooDeepToRead with
      | ok document => simp
      | error fault => cases fault <;> simp

theorem isBreakdown_of_tableAt {place : List String} {cause : ConfigurationFault}
    (stopped : tableAt disk interpreter place = .error cause) : cause.isBreakdown = true := by
  rw [tableAt] at stopped
  split at stopped
  · cases stopped
    rfl
  · split at stopped <;> cases stopped
    rfl

/-- The settings in the manifest of a directory. A manifest that cannot be read has none. -/
def settingsIn (disk : Disk) (interpreter : Interpreter) (place : List String) : Table :=
  (tableAt disk interpreter place).toOption.getD []

/-- The settings of the first directory that has any. -/
def firstSettings (disk : Disk) (interpreter : Interpreter) (places : List (List String)) : Table :=
  ((places.map (settingsIn disk interpreter)).find? (!·.isEmpty)).getD []

/-! ### The search above a target -/

/-- What the search does at a directory. -/
theorem firstTable_cons (disk : Disk) (interpreter : Interpreter) (place : List String)
    (rest : List (List String)) :
    (tableAt disk interpreter place = .ok [] ∧
        firstTable disk interpreter (place :: rest) = firstTable disk interpreter rest ∧
        firstSettings disk interpreter (place :: rest) = firstSettings disk interpreter rest) ∨
      (∃ table, tableAt disk interpreter place = .ok table ∧ table ≠ [] ∧
        firstTable disk interpreter (place :: rest) = .ok table ∧
        firstSettings disk interpreter (place :: rest) = table) ∨
      ∃ cause, tableAt disk interpreter place = .error cause ∧
        firstTable disk interpreter (place :: rest) = .error cause := by
  rw [firstTable, firstSettings, firstSettings, List.map_cons, settingsIn]
  cases found : tableAt disk interpreter place with
  | error cause => exact Or.inr (Or.inr ⟨cause, rfl, rfl⟩)
  | ok table =>
    cases table with
    | nil => exact Or.inl ⟨rfl, rfl, rfl⟩
    | cons entry entries => exact Or.inr (Or.inl ⟨_, rfl, by simp, rfl, rfl⟩)

/-- The search gives the first settings unless it is stopped before. -/
theorem firstSettings_of_firstTable {places : List (List String)} {table : Table}
    (found : firstTable disk interpreter places = .ok table) :
    firstSettings disk interpreter places = table := by
  induction places with
  | nil =>
    cases found
    rfl
  | cons place rest inductionHypothesis =>
    rcases firstTable_cons disk interpreter place rest with
      ⟨_, same, first⟩ | ⟨other, _, _, same, first⟩ | ⟨cause, _, same⟩
    · exact first.trans (inductionHypothesis (same.symm.trans found))
    · cases same.symm.trans found
      exact first
    · cases same.symm.trans found

/-- The search is stopped at a directory if the nearer ones have no settings. -/
theorem firstTable_eq_error_iff {places : List (List String)} :
    (∃ cause, firstTable disk interpreter places = .error cause) ↔
      BreaksAtFirstMisfit (tableAt disk interpreter · = .ok []) (IsStopped disk interpreter)
        places := by
  induction places with
  | nil =>
    refine iff_of_false ?_ not_breaksAtFirstMisfit_nil
    rintro ⟨cause, same⟩
    cases same
  | cons first rest inductionHypothesis =>
    rw [breaksAtFirstMisfit_cons, ← inductionHypothesis, isStopped_iff]
    rcases firstTable_cons disk interpreter first rest with
      ⟨passed, same, _⟩ | ⟨table, found, filled, same, _⟩ | ⟨cause, stopped, same⟩
    · simp [passed, same]
    · simp [found, same, filled]
    · simp [stopped, same]

theorem isBreakdown_of_firstTable {places : List (List String)} {cause : ConfigurationFault}
    (stopped : firstTable disk interpreter places = .error cause) : cause.isBreakdown = true := by
  induction places with
  | nil => cases stopped
  | cons place rest inductionHypothesis =>
    rcases firstTable_cons disk interpreter place rest with
      ⟨_, same, _⟩ | ⟨table, _, _, same, _⟩ | ⟨other, found, same⟩
    · exact inductionHypothesis (same.symm.trans stopped)
    · cases same.symm.trans stopped
    · cases same.symm.trans stopped
      exact isBreakdown_of_tableAt found

/-! ### The table of a run -/

variable {target : String} {file : Option String}

/-- What stops the search for the settings of a run: the name of a file holds a null character, the
file can be opened but not read to its end, the system fails to look up the target, or the search
is stopped at a directory, with no settings in any that is nearer. -/
inductive SearchStops (disk : Disk) (interpreter : Interpreter) (target : String)
    (file : Option String) : Prop
  | name (name : String) (named : file = some name) (null : '\x00' ∈ name.toList)
  | file (name : String) (named : file = some name) (bytes : Bytes)
    (content : disk.readBytes (.ofText name) = .ok bytes)
    (obstructed : Toml.IsObstructed interpreter.tooDeepToRead bytes)
  | start (unnamed : file = none) (cause : SystemFault)
    (barred : disk.barred (disk.resolve (.ofText target)) = some cause)
  | manifest (unnamed : file = none)
    (stopped : BreaksAtFirstMisfit (tableAt disk interpreter · = .ok [])
      (IsStopped disk interpreter) (enclosingPlaces (searchStart disk target)))

/-- The table of settings that a run is to go by. A file that the caller names has none if it cannot
be read. -/
def requestedTable? (disk : Disk) (interpreter : Interpreter) (target : String)
    (file : Option String) : Option Table :=
  match file with
  | some file => (tableInFile disk interpreter file).toOption
  | none => some (firstSettings disk interpreter (enclosingPlaces (searchStart disk target)))

/-- A breakdown over a file comes from its name or its bytes. -/
theorem tableInFile_eq_breakdown_iff {name : String} :
    (∃ cause, tableInFile disk interpreter name = .error cause ∧ cause.isBreakdown = true) ↔
      '\x00' ∈ name.toList ∨ ∃ bytes, disk.readBytes (.ofText name) = .ok bytes ∧
        Toml.IsObstructed interpreter.tooDeepToRead bytes := by
  rw [tableInFile]
  by_cases null : '\x00' ∈ name.toList
  · rw [if_pos (by simpa using null)]
    exact iff_of_true ⟨_, rfl, rfl⟩ (Or.inl null)
  · rw [if_neg (by simpa using null)]
    simp only [null, false_or]
    cases disk.readBytes (.ofText name) with
    | error cause => simp [ConfigurationFault.isBreakdown]
    | ok bytes =>
      simp only [Except.ok.injEq, exists_eq_left', Toml.isObstructed_iff]
      cases Toml.readBytes bytes interpreter.tooDeepToRead with
      | ok document => simp
      | error fault => cases fault <;> simp [ConfigurationFault.isBreakdown]

/-- A breakdown over the manifests above a target comes from the target or from one of them. -/
theorem nearestTable_eq_error_iff :
    (∃ cause, nearestTable disk interpreter target = .error cause) ↔
      (disk.barred (disk.resolve (.ofText target))).isSome = true ∨
        BreaksAtFirstMisfit (tableAt disk interpreter · = .ok []) (IsStopped disk interpreter)
          (enclosingPlaces (searchStart disk target)) := by
  rw [nearestTable]
  cases looked : disk.barred (disk.resolve (.ofText target)) with
  | some cause => exact iff_of_true ⟨_, rfl⟩ (Or.inl rfl)
  | none => simp [firstTable_eq_error_iff]

theorem isBreakdown_of_nearestTable {cause : ConfigurationFault}
    (stopped : nearestTable disk interpreter target = .error cause) :
    cause.isBreakdown = true := by
  rw [nearestTable] at stopped
  split at stopped
  · cases stopped
    rfl
  · exact isBreakdown_of_firstTable stopped

/-- The search is stopped exactly where it ends in a breakdown. -/
theorem searchStops_iff :
    SearchStops disk interpreter target file ↔
      ∃ cause, foundTable disk interpreter target file = .error cause ∧
        cause.isBreakdown = true := by
  cases file with
  | some name =>
    rw [foundTable, tableInFile_eq_breakdown_iff]
    constructor
    · rintro (⟨_, named, null⟩ | ⟨_, named, bytes, content, obstructed⟩ | ⟨unnamed, _⟩ |
        ⟨unnamed, _⟩)
      · cases named
        exact Or.inl null
      · cases named
        exact Or.inr ⟨bytes, content, obstructed⟩
      · cases unnamed
      · cases unnamed
    · rintro (null | ⟨bytes, content, obstructed⟩)
      · exact .name name rfl null
      · exact .file name rfl bytes content obstructed
  | none =>
    have every : (∃ cause, foundTable disk interpreter target none = .error cause ∧
        cause.isBreakdown = true) ↔ ∃ cause, nearestTable disk interpreter target = .error cause :=
      exists_congr fun cause => and_iff_left_of_imp isBreakdown_of_nearestTable
    rw [every, nearestTable_eq_error_iff]
    constructor
    · rintro (⟨_, named, _⟩ | ⟨_, named, _⟩ | ⟨_, cause, barred⟩ | ⟨_, stopped⟩)
      · cases named
      · cases named
      · exact Or.inl (by rw [barred]; rfl)
      · exact Or.inr stopped
    · rintro (barred | stopped)
      · obtain ⟨cause, barred⟩ := Option.isSome_iff_exists.mp barred
        exact .start rfl cause barred
      · exact .manifest rfl stopped

theorem foundTable_of_requestedTable? (clear : ¬ SearchStops disk interpreter target file)
    {table : Table} (requested : requestedTable? disk interpreter target file = some table) :
    foundTable disk interpreter target file = .ok table := by
  cases file with
  | some name =>
    rw [requestedTable?] at requested
    rw [foundTable]
    cases found : tableInFile disk interpreter name with
    | error cause => simp [found, Except.toOption] at requested
    | ok other =>
      rw [found] at requested
      exact congrArg Except.ok (Option.some.inj requested)
  | none =>
    cases found : foundTable disk interpreter target none with
    | error cause =>
      exact absurd (searchStops_iff.mpr ⟨cause, found, isBreakdown_of_nearestTable found⟩) clear
    | ok other =>
      rw [← Option.some.inj requested]
      rw [foundTable, nearestTable] at found
      split at found
      · cases found
      · exact congrArg Except.ok (firstSettings_of_firstTable found).symm

/-! ### The settings of a run -/

/-- A table with another number of workers, if one is asked for. -/
def withWorkersEntry (workers : Option Int) (table : Table) : Table :=
  match workers with
  | none => table
  | some count => table.insert "max_workers" (.integer count)

/-- The settings that a run is to go by. -/
def requestedSettings? (disk : Disk) (interpreter : Interpreter) (target : String)
    (file : Option String) (workers : Option Int) : Option Settings :=
  (requestedTable? disk interpreter target file).bind fun table =>
    (Settings.read (withWorkersEntry workers table) interpreter).2.toOption

/-- What stops a run before it has settings: the search for them, or a value in them. -/
inductive ConfigurationStops (disk : Disk) (interpreter : Interpreter) (target : String)
    (file : Option String) : Prop
  | search (stops : SearchStops disk interpreter target file)
  | value (table : Table) (requested : requestedTable? disk interpreter target file = some table)
    (fault : Settings.Fault) (read : (Settings.read table interpreter).2 = .error fault)
    (stops : fault.isBreakdown = true)

/-- Why a run is not to have any settings. -/
inductive LacksSettings (disk : Disk) (interpreter : Interpreter) (target : String)
    (file : Option String) (workers : Option Int) : Prop
  | file (name : String) (named : file = some name)
    (unread : (tableInFile disk interpreter name).isOk = false)
  | invalid (table : Table)
    (requested : requestedTable? disk interpreter target file = some table)
    (fault : Settings.Fault) (refused : (Settings.read table interpreter).2 = .error fault)
    (told : fault.isBreakdown = false)
  | workers (count : Int) (asked : workers = some count) (low : count ≤ 0)

theorem configure_snd (disk : Disk) (interpreter : Interpreter) (target : String)
    (file : Option String) (workers : Option Int) :
    (configure disk interpreter target file workers).2 =
      (foundTable disk interpreter target file).bind fun table =>
        ((Settings.read table interpreter).2.mapError .settings).bind fun settings =>
          (withWorkers interpreter workers settings).2 := by
  rw [configure]
  cases foundTable disk interpreter target file with
  | error cause => rfl
  | ok table =>
    dsimp only [Except.bind]
    obtain ⟨warnings, result⟩ := Settings.read table interpreter
    cases result <;> rfl

theorem readTextLists_insert_maxWorkers (table : Table) (value : Value) :
    Settings.readTextLists (table.insert "max_workers" value) =
      Settings.readTextLists table := by
  simp only [Settings.readTextLists, Settings.readTexts,
    Table.lookup_insert_other (show "allowed_editions" ≠ "max_workers" by decide),
    Table.lookup_insert_other (show "required_dependencies" ≠ "max_workers" by decide),
    Table.lookup_insert_other (show "exclude_dirs" ≠ "max_workers" by decide)]

/-- The number of workers does not decide whether settings are accepted. -/
theorem exists_read_withWorkersEntry {table : Table} {settings : Settings}
    (readable : (Settings.read table interpreter).2 = .ok settings) (workers : Option Int) :
    ∃ settings',
      (Settings.read (withWorkersEntry workers table) interpreter).2 = .ok settings' := by
  cases workers with
  | none => exact ⟨settings, readable⟩
  | some count =>
    obtain ⟨kinds, customRules, custom, named, described, compiled, typed⟩ :=
      Settings.read_eq_ok.mp readable
    obtain ⟨texts, listed, _⟩ := map_eq_ok_iff.mp typed
    refine ⟨_, Settings.read_eq_ok.mpr ⟨kinds, customRules, custom, ?_, ?_, compiled,
      map_eq_ok_iff.mpr ⟨texts, ?_, rfl⟩⟩⟩
    · rwa [withWorkersEntry, Table.lookup_insert_other (by decide)]
    · rwa [withWorkersEntry, Table.lookup_insert_other (by decide)]
    · rwa [withWorkersEntry, readTextLists_insert_maxWorkers]

theorem withWorkers_snd {table : Table} {settings : Settings}
    (readable : (Settings.read table interpreter).2 = .ok settings) (workers : Option Int) :
    (withWorkers interpreter workers settings).2 =
      if workers.any (· ≤ 0) then .error .workersNotPositive
      else
        (Settings.read (withWorkersEntry workers table) interpreter).2.mapError .settings := by
  cases workers with
  | none => rw [withWorkersEntry, readable]; rfl
  | some count =>
    rw [withWorkers]
    by_cases low : count ≤ 0
    · simp [low]
    · have again : settings.override [("max_workers", .integer count)] interpreter =
          Settings.read (withWorkersEntry (some count) table) interpreter := by
        rw [Settings.override, Settings.source_of_read readable]
        rfl
      simp [low, again]

/-- Only a file that the caller names can lack a table. -/
theorem requestedTable?_eq_none :
    requestedTable? disk interpreter target file = none ↔
      ∃ name, file = some name ∧ (tableInFile disk interpreter name).isOk = false := by
  cases file with
  | none => simp [requestedTable?]
  | some name =>
    rw [requestedTable?]
    cases found : tableInFile disk interpreter name <;>
      simp [found, Except.toOption, Except.isOk, Except.toBool]

variable {workers : Option Int}

/-- A run that is stopped before it has settings ends in a breakdown. -/
theorem configure_of_configurationStops
    (stops : ConfigurationStops disk interpreter target file) (workers : Option Int) :
    ∃ cause, (configure disk interpreter target file workers).2 = .error cause ∧
      cause.isBreakdown = true := by
  rw [configure_snd]
  by_cases searching : SearchStops disk interpreter target file
  · obtain ⟨cause, found, breaks⟩ := searchStops_iff.mp searching
    exact ⟨cause, by rw [found]; rfl, breaks⟩
  · cases stops with
    | search stops => exact absurd stops searching
    | value table requested fault read stops =>
      refine ⟨.settings fault, ?_, stops⟩
      rw [foundTable_of_requestedTable? searching requested, Except.bind, read]
      rfl

/-- A run has the settings that it is to go by. -/
theorem configure_of_not_lacksSettings
    (clear : ¬ ConfigurationStops disk interpreter target file)
    (whole : ¬ LacksSettings disk interpreter target file workers) :
    ∃ settings, requestedSettings? disk interpreter target file workers = some settings ∧
      (configure disk interpreter target file workers).2 = .ok settings := by
  cases requested : requestedTable? disk interpreter target file with
  | none =>
    obtain ⟨name, named, unread⟩ := requestedTable?_eq_none.mp requested
    exact absurd (.file name named unread) whole
  | some table =>
    cases readable : (Settings.read table interpreter).2 with
    | error fault =>
      cases told : fault.isBreakdown with
      | false => exact absurd (.invalid table requested fault readable told) whole
      | true => exact absurd (.value table requested fault readable told) clear
    | ok settings =>
      have enough : workers.any (· ≤ 0) = false := by
        refine Bool.not_eq_true _ |>.mp fun low => whole ?_
        obtain ⟨count, asked, low⟩ := (Option.any_eq_true _ _).mp low
        exact .workers count asked (of_decide_eq_true low)
      obtain ⟨settings', accepted⟩ := exists_read_withWorkersEntry readable workers
      refine ⟨settings', ?_, ?_⟩
      · rw [requestedSettings?, requested, Option.bind_some, accepted]
        rfl
      · rw [configure_snd, foundTable_of_requestedTable? (fun stops => clear (.search stops))
          requested, Except.bind, readable]
        exact (withWorkers_snd readable workers).trans (by rw [enough, accepted]; rfl)

/-- A run that is not to have settings is refused them. -/
theorem configure_of_lacksSettings (clear : ¬ ConfigurationStops disk interpreter target file)
    (lacks : LacksSettings disk interpreter target file workers) :
    ∃ cause, (configure disk interpreter target file workers).2 = .error cause ∧
      cause.isBreakdown = false := by
  have searched : ¬ SearchStops disk interpreter target file := fun stops => clear (.search stops)
  rw [configure_snd]
  cases requested : requestedTable? disk interpreter target file with
  | none =>
    obtain ⟨name, rfl, unread⟩ := requestedTable?_eq_none.mp requested
    cases found : tableInFile disk interpreter name with
    | ok table =>
      rw [found] at unread
      cases unread
    | error cause =>
      refine ⟨cause, by rw [foundTable, found]; rfl, Bool.not_eq_true _ |>.mp fun breaks => ?_⟩
      exact searched (searchStops_iff.mpr ⟨cause, found, breaks⟩)
  | some table =>
    rw [foundTable_of_requestedTable? searched requested, Except.bind]
    cases readable : (Settings.read table interpreter).2 with
    | error fault =>
      refine ⟨.settings fault, rfl, Bool.not_eq_true _ |>.mp fun breaks => ?_⟩
      exact clear (.value table requested fault readable breaks)
    | ok settings =>
      have low : workers.any (· ≤ 0) = true := by
        cases lacks with
        | file name named unread =>
          cases requested.symm.trans (requestedTable?_eq_none.mpr ⟨name, named, unread⟩)
        | invalid other requested' fault refused told =>
          rw [requested] at requested'
          cases requested'
          cases readable.symm.trans refused
        | workers count asked low => simp [asked, low]
      exact ⟨.workersNotPositive, (withWorkers_snd readable workers).trans (if_pos low), rfl⟩

end Project

end CrateAudit
