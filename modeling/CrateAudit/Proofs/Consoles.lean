/-
This file compares a check with the same check on a host that shows and takes every text.
It leads to the same if the host accepts all that the other one tells, prints and
writes; else it breaks off at a text.
-/

import CrateAudit.Command.Run

namespace CrateAudit.Command

variable {host : Host} {outcome strict free : Outcome}

/-! ### Commands that have broken off -/

theorem Outcome.andThen_of_broken {cause : Breakdown} (broken : outcome.ending = .broken cause)
    (next : Outcome → Outcome) : outcome.andThen next = outcome := by
  rw [andThen, broken]

theorem Outcome.andThen_of_status {code : Nat} (ends : outcome.ending = .status code)
    (next : Outcome → Outcome) : outcome.andThen next = next outcome := by
  rw [andThen, ends]

theorem Outcome.putting_of_broken {cause : Breakdown} (broken : outcome.ending = .broken cause)
    (accepts : String → Bool) (texts : List String) (next : Outcome → Outcome) :
    outcome.putting accepts texts next = outcome := by
  rw [putting]
  split
  · exact andThen_of_broken broken fun outcome => { outcome with ending := _ }
  · exact andThen_of_broken broken next

/-- A command that breaks off has broken off, be it now or before. -/
theorem Outcome.exists_broken_break_ (outcome : Outcome) (cause : Breakdown) :
    ∃ other, (outcome.break_ cause).ending = .broken other := by
  rw [break_, endWith]
  cases ends : outcome.ending with
  | status code =>
    rw [andThen_of_status ends]
    exact ⟨cause, rfl⟩
  | broken other =>
    rw [andThen_of_broken ends]
    exact ⟨other, ends⟩

/-! ### Hosts that accept every text -/

theorem Outcome.putting_of_accepted {accepts : String → Bool} {texts : List String}
    (accepted : ∀ text ∈ texts, accepts text = true) (next : Outcome → Outcome) :
    outcome.putting accepts texts next = outcome.andThen next := by
  have none : texts.find? (fun text => !accepts text) = none := by
    simpa using accepted
  rw [putting, none]

theorem Outcome.tell_indulgent (host : Host) (notice : Notice) (outcome : Outcome) :
    outcome.tell host.indulgent notice =
      outcome.andThen fun outcome => { outcome with notices := outcome.notices ++ [notice] } :=
  putting_of_accepted (fun _ _ => rfl) _

theorem Outcome.print_indulgent (host : Host) (printed : Report.Printed) (outcome : Outcome) :
    outcome.print host.indulgent printed =
      outcome.andThen fun outcome => { outcome with prints := outcome.prints ++ [printed] } :=
  putting_of_accepted (fun _ _ => rfl) _

theorem Outcome.write_indulgent (host : Host) (text : String) (outcome : Outcome) :
    outcome.write host.indulgent text =
      outcome.andThen fun outcome => { outcome with output := outcome.output ++ [text] } :=
  putting_of_accepted (fun _ _ => rfl) _

/-! ### Following -/

/-- Whether a host accepts all that a command tells, prints and writes. -/
structure Accepts (host : Host) (outcome : Outcome) : Prop where
  notices : ∀ notice ∈ outcome.notices,
    ∀ text ∈ (notice.announce .standard host.words).shown, host.shows text = true
  prints : ∀ printed ∈ outcome.prints, ∀ text ∈ printed.texts, host.shows text = true
  output : ∀ text ∈ outcome.output, host.takes text = true

theorem Accepts.of_andThen {next : Outcome → Outcome}
    (adds : ∀ outcome, Accepts host (next outcome) → Accepts host outcome)
    (accepted : Accepts host (outcome.andThen next)) : Accepts host outcome := by
  cases ends : outcome.ending with
  | broken cause => rwa [Outcome.andThen_of_broken ends] at accepted
  | status code =>
    rw [Outcome.andThen_of_status ends] at accepted
    exact adds outcome accepted

theorem Accepts.withEnding (accepted : Accepts host outcome) (disk : Disk) (ending : Ending) :
    Accepts host { outcome with disk, ending } :=
  ⟨accepted.notices, accepted.prints, accepted.output⟩

theorem Accepts.of_endWith {ending : Ending} (accepted : Accepts host (outcome.endWith ending)) :
    Accepts host outcome := by
  rw [Outcome.endWith] at accepted
  refine of_andThen ?_ accepted
  exact fun outcome accepted => accepted.withEnding outcome.disk outcome.ending

theorem Accepts.of_tell {notice : Notice}
    (accepted : Accepts host (outcome.tell host.indulgent notice)) : Accepts host outcome := by
  rw [Outcome.tell_indulgent] at accepted
  refine of_andThen ?_ accepted
  exact fun outcome accepted => ⟨fun other member =>
    accepted.notices other (List.mem_append_left _ member), accepted.prints, accepted.output⟩

/-- A command on a host against the same command on an indulgent one: both have led to the same, and
the host accepts it, or the first has broken off at a text, and the host does not accept all of what
the second has put out. -/
inductive Follows (host : Host) (strict free : Outcome) : Prop
  | same (equal : strict = free) (accepted : Accepts host free)
  | cut (text : String) (broken : strict.ending = .broken (.text text))
    (rejected : ¬ Accepts host free)

namespace Follows

/-- A step that puts out texts, given what it adds to what has to be accepted. -/
theorem putting (follows : Follows host strict free) {accepts : String → Bool}
    {texts : List String} {next : Outcome → Outcome}
    (adds : ∀ outcome, Accepts host (next outcome) ↔
      Accepts host outcome ∧ ∀ text ∈ texts, accepts text = true) :
    Follows host (strict.putting accepts texts next)
      (free.putting (fun _ => true) texts next) := by
  have freely : free.putting (fun _ => true) texts next = free.andThen next :=
    Outcome.putting_of_accepted (fun _ _ => rfl) next
  rw [freely]
  cases follows with
  | cut text broken rejected =>
    rw [Outcome.putting_of_broken broken]
    exact .cut text broken fun accepted =>
      rejected (.of_andThen (fun other accepted => ((adds other).mp accepted).1) accepted)
  | same equal accepted =>
    subst equal
    cases ends : strict.ending with
    | broken cause =>
      rw [Outcome.putting_of_broken ends, Outcome.andThen_of_broken ends]
      exact .same rfl accepted
    | status code =>
      rw [Outcome.andThen_of_status ends]
      by_cases all : ∀ text ∈ texts, accepts text = true
      · rw [Outcome.putting_of_accepted all, Outcome.andThen_of_status ends]
        exact .same rfl ((adds strict).mpr ⟨accepted, all⟩)
      · rw [Outcome.putting]
        split
        · rename_i text found
          refine .cut text ?_ fun accepted => all ((adds strict).mp accepted).2
          rw [Outcome.break_, Outcome.endWith, Outcome.andThen_of_status ends]
        · rename_i none
          exact absurd (by simpa using none) all

/-- A step that puts out nothing. -/
theorem andThen (follows : Follows host strict free) {next : Outcome → Outcome}
    (silent : ∀ outcome, Accepts host (next outcome) ↔ Accepts host outcome) :
    Follows host (strict.andThen next) (free.andThen next) := by
  have step : Follows host (strict.putting (fun _ => true) [] next)
      (free.putting (fun _ => true) [] next) :=
    follows.putting fun outcome => (silent outcome).trans (by simp)
  exact step

theorem endWith (follows : Follows host strict free) (ending : Ending) :
    Follows host (strict.endWith ending) (free.endWith ending) :=
  follows.andThen fun outcome =>
    ⟨fun accepted => accepted.withEnding outcome.disk outcome.ending,
      fun accepted => accepted.withEnding outcome.disk ending⟩

theorem warn (follows : Follows host strict free) (warnings : List Settings.Warning) :
    Follows host (strict.warn warnings) (free.warn warnings) :=
  follows.andThen fun _ =>
    ⟨fun accepted => ⟨accepted.1, accepted.2, accepted.3⟩,
      fun accepted => ⟨accepted.1, accepted.2, accepted.3⟩⟩

theorem tell (follows : Follows host strict free) (notice : Notice) :
    Follows host (strict.tell host notice) (free.tell host.indulgent notice) := by
  refine follows.putting fun outcome => ⟨fun accepted => ⟨⟨?_, accepted.2, accepted.3⟩, ?_⟩,
    fun ⟨accepted, shown⟩ => ⟨?_, accepted.2, accepted.3⟩⟩
  · exact fun other member => accepted.1 other (List.mem_append_left _ member)
  · exact accepted.1 notice (List.mem_append_right _ List.mem_cons_self)
  · intro other member
    rcases List.mem_append.mp member with member | member
    · exact accepted.1 other member
    · rw [List.mem_singleton.mp member]
      exact shown

theorem print (follows : Follows host strict free) (printed : Report.Printed) :
    Follows host (strict.print host printed) (free.print host.indulgent printed) := by
  refine follows.putting fun outcome => ⟨fun accepted => ⟨⟨accepted.1, ?_, accepted.3⟩, ?_⟩,
    fun ⟨accepted, shown⟩ => ⟨accepted.1, ?_, accepted.3⟩⟩
  · exact fun other member => accepted.2 other (List.mem_append_left _ member)
  · exact accepted.2 printed (List.mem_append_right _ List.mem_cons_self)
  · intro other member
    rcases List.mem_append.mp member with member | member
    · exact accepted.2 other member
    · rw [List.mem_singleton.mp member]
      exact shown

theorem write (follows : Follows host strict free) (text : String) :
    Follows host (strict.write host text) (free.write host.indulgent text) := by
  refine follows.putting fun outcome => ⟨fun accepted => ⟨⟨accepted.1, accepted.2, ?_⟩, ?_⟩,
    fun ⟨accepted, taken⟩ => ⟨accepted.1, accepted.2, ?_⟩⟩
  · exact fun other member => accepted.3 other (List.mem_append_left _ member)
  · exact fun other member => accepted.3 other (List.mem_append_right _ member)
  · intro other member
    rcases List.mem_append.mp member with member | member
    · exact accepted.3 other member
    · exact taken other member

theorem tellAll (follows : Follows host strict free) (notices : List Notice) :
    Follows host (strict.tellAll host notices) (free.tellAll host.indulgent notices) := by
  induction notices generalizing strict free with
  | nil => exact follows
  | cons notice rest inductionHypothesis => exact inductionHypothesis (follows.tell notice)

theorem printAll (follows : Follows host strict free) (prints : List Report.Printed) :
    Follows host (strict.printAll host prints) (free.printAll host.indulgent prints) := by
  induction prints generalizing strict free with
  | nil => exact follows
  | cons printed rest inductionHypothesis => exact inductionHypothesis (follows.print printed)

theorem refuse (follows : Follows host strict free) (cause : Refusal) :
    Follows host (strict.refuse host cause) (free.refuse host.indulgent cause) :=
  (follows.tell _).endWith _

/-- Where the host accepts what the indulgent one puts out, both lead to the same. -/
theorem eq_of_accepts (follows : Follows host strict free) (accepted : Accepts host free) :
    strict = free := by
  cases follows with
  | same equal _ => exact equal
  | cut text broken rejected => exact absurd accepted rejected

theorem exists_broken (follows : Follows host strict free) (rejected : ¬ Accepts host free) :
    ∃ cause, strict.ending = .broken cause := by
  cases follows with
  | same _ accepted => exact absurd accepted rejected
  | cut text broken _ => exact ⟨_, broken⟩

/-- The only step that depends on the disk it finds is the last one. -/
theorem emit (follows : Follows host strict free) (text : String) (file : Option String) :
    Follows host (Command.emit host text file strict)
      (Command.emit host.indulgent text file free) := by
  cases file with
  | none => exact follows.write text
  | some name =>
    rw [Command.emit, Command.emit]
    cases follows with
    | cut cutText broken rejected =>
      rw [Outcome.andThen_of_broken broken]
      refine .cut cutText broken fun accepted => rejected (.of_andThen (fun other accepted => ?_)
        accepted)
      split at accepted
      · exact accepted.of_endWith
      · exact accepted.of_tell.withEnding other.disk other.ending
    | same equal accepted =>
      subst equal
      cases ends : strict.ending with
      | broken cause =>
        rw [Outcome.andThen_of_broken ends, Outcome.andThen_of_broken ends]
        exact .same rfl accepted
      | status code =>
        rw [Outcome.andThen_of_status ends, Outcome.andThen_of_status ends]
        split
        · exact (same rfl accepted).endWith _
        · exact (same rfl (accepted.withEnding _ strict.ending)).tell _

end Follows

/-! ### The steps of a check -/

/-- The same session on an indulgent host. -/
def Session.indulgent (session : Session) : Session :=
  { session with host := session.host.indulgent }

variable {session : Session}

theorem Follows.reaching {next next' : Outcome → Outcome} (path : Path) (disk : Disk)
    (follows : Follows host strict free)
    (step : ∀ {strict free}, Follows host strict free → Follows host (next strict) (next' free)) :
    Follows host (strict.reaching path disk next) (free.reaching path disk next') := by
  rw [Outcome.reaching, Outcome.reaching]
  split
  · exact follows.endWith _
  · exact step follows

theorem Follows.report (follows : Follows session.host strict free) (options : CheckOptions)
    (format : Format) (view : Report.View) (audit : Audit) :
    Follows session.host (Command.report session options format view audit strict)
      (Command.report session.indulgent options format view audit free) := by
  cases format with
  | terminal =>
    rw [Command.report, Command.report, Session.indulgent]
    dsimp only
    split
    · exact follows.endWith _
    · exact follows.printAll _
  | json | markdown =>
    rw [Command.report, Command.report]
    rw [show document session.indulgent = document session from rfl]
    split
    · exact follows.endWith _
    · exact follows.emit _ _

theorem Follows.checkWith (follows : Follows session.host strict free) (options : CheckOptions)
    (format : Format) (view : Report.View) (target : String) (settings : Settings) :
    Follows session.host (Command.checkWith session options format view target settings strict)
      (Command.checkWith session.indulgent options format view target settings free) :=
  follows.reaching _ _ fun follows => ((follows.tellAll _).report options format view _).endWith _

theorem Follows.withSettings (follows : Follows session.host strict free) (target : String)
    (file : Option String) (workers : Option Int)
    {otherwise otherwise' : ConfigurationFault → Outcome → Outcome}
    {next next' : Settings → Outcome → Outcome}
    (stop : ∀ cause {strict free}, Follows session.host strict free →
      Follows session.host (otherwise cause strict) (otherwise' cause free))
    (step : ∀ settings {strict free}, Follows session.host strict free →
      Follows session.host (next settings strict) (next' settings free)) :
    Follows session.host (Command.withSettings session target file workers otherwise next strict)
      (Command.withSettings session.indulgent target file workers otherwise' next' free) := by
  rw [Command.withSettings, Command.withSettings, Session.indulgent]
  dsimp only [Host.indulgent]
  split
  · exact stop _ (follows.warn _)
  · exact step _ (follows.warn _)

theorem Follows.endWithoutSettings (follows : Follows host strict free)
    (cause : ConfigurationFault) :
    Follows host (Command.endWithoutSettings host cause strict)
      (Command.endWithoutSettings host.indulgent cause free) := by
  rw [Command.endWithoutSettings, Command.endWithoutSettings]
  split
  · exact follows.endWith _
  · exact follows.refuse _

theorem Follows.checkTarget (follows : Follows session.host strict free) (options : CheckOptions)
    (format : Format) (view : Report.View) (path : Path) :
    Follows session.host (Command.checkTarget session options format view path strict)
      (Command.checkTarget session.indulgent options format view path free) := by
  rw [Command.checkTarget, Command.checkTarget]
  rw [show session.indulgent.disk = session.disk from rfl]
  split
  · exact follows.refuse _
  · refine Follows.withSettings ?_ _ _ _ (fun cause _ _ follows => follows.endWithoutSettings cause)
      fun settings _ _ follows => follows.checkWith options format view _ settings
    split
    · exact follows.tell _
    · exact follows

/-- A check leads to what it leads to on an indulgent host, or breaks off at a text. -/
theorem follows_check (session : Session) (options : CheckOptions) :
    Follows session.host (check session options) (check session.indulgent options) := by
  have start : Follows session.host (.start session.disk) (.start session.disk) :=
    .same rfl ⟨by simp [Outcome.start], by simp [Outcome.start], by simp [Outcome.start]⟩
  rw [check, check]
  rw [show session.indulgent.disk = session.disk from rfl]
  split
  · exact start.refuse _
  · exact start.refuse _
  · exact start.reaching _ _ fun follows => follows.checkTarget options _ _ _

end CrateAudit.Command
