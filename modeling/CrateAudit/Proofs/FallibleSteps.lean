/-
This file says when steps that may fail succeed: a step that uses the result of another
does if both do, and steps over a list do if each of its items has a result. Where the
steps end at the first item that has none, it says which item that is.
-/

import Mathlib.Data.List.Forall2

namespace CrateAudit

variable {First Item Result Fault : Type}

theorem exists_of_isOk {outcome : Except Fault Result} (ok : outcome.isOk = true) :
    ∃ result, outcome = .ok result := by
  cases outcome with
  | error fault => cases ok
  | ok result => exact ⟨result, rfl⟩

theorem bind_eq_ok_iff {first : Except Fault First} {next : First → Except Fault Result}
    {result : Result} :
    first >>= next = .ok result ↔ ∃ value, first = .ok value ∧ next value = .ok result := by
  cases first with
  | error fault =>
    refine iff_of_false (fun made => by cases made) ?_
    rintro ⟨_, ⟨⟩, _⟩
  | ok value =>
    constructor
    · exact fun made => ⟨value, rfl, made⟩
    · rintro ⟨_, ⟨⟩, made⟩
      exact made

theorem bind_of_ok {first : Except Fault First} {value : First} (done : first = .ok value)
    (next : First → Except Fault Result) : first >>= next = next value := by
  rw [done]
  rfl

theorem map_eq_ok_iff {first : Except Fault First} {change : First → Result} {result : Result} :
    first.map change = .ok result ↔ ∃ value, first = .ok value ∧ change value = result := by
  cases first with
  | error fault =>
    refine iff_of_false (fun made => by cases made) ?_
    rintro ⟨_, ⟨⟩, _⟩
  | ok value =>
    constructor
    · rintro ⟨⟩
      exact ⟨value, rfl, rfl⟩
    · rintro ⟨_, ⟨⟩, rfl⟩
      rfl

theorem mapError_eq_ok_iff {Fault' : Type} {outcome : Except Fault Result} {name : Fault → Fault'}
    {result : Result} : outcome.mapError name = .ok result ↔ outcome = .ok result := by
  cases outcome with
  | error fault => exact iff_of_false (fun made => by cases made) fun made => by cases made
  | ok value => rw [Except.mapError, Except.ok.injEq, Except.ok.injEq]

/-- Where each item has a result as it should be, all of them have. -/
theorem exists_mapM_eq_ok {step : Item → Except Fault Result} {fits : Item → Result → Prop}
    {items : List Item}
    (each : ∀ item ∈ items, ∃ result, step item = .ok result ∧ fits item result) :
    ∃ results, items.mapM step = .ok results ∧ List.Forall₂ fits items results := by
  induction items with
  | nil => exact ⟨[], rfl, .nil⟩
  | cons item rest inductionHypothesis =>
    rw [List.forall_mem_cons] at each
    obtain ⟨result, here, fitting⟩ := each.1
    obtain ⟨results, later, allFitting⟩ := inductionHypothesis each.2
    refine ⟨result :: results, ?_, .cons fitting allFitting⟩
    rw [List.mapM_cons, here, later]
    rfl

/-! ### The first item that breaks -/

/-- All items before one that breaks are fit. -/
def BreaksAtFirstMisfit (fits breaks : Item → Prop) (items : List Item) : Prop :=
  ∃ before item after, items = before ++ item :: after ∧ (∀ earlier ∈ before, fits earlier) ∧
    breaks item

theorem not_breaksAtFirstMisfit_nil {fits breaks : Item → Prop} :
    ¬ BreaksAtFirstMisfit fits breaks [] := by
  rintro ⟨before, item, after, same, _⟩
  exact List.append_ne_nil_of_right_ne_nil _ (List.cons_ne_nil _ _) same.symm

theorem breaksAtFirstMisfit_cons {fits breaks : Item → Prop} {item : Item} {rest : List Item} :
    BreaksAtFirstMisfit fits breaks (item :: rest) ↔
      breaks item ∨ fits item ∧ BreaksAtFirstMisfit fits breaks rest := by
  constructor
  · rintro ⟨before, other, after, same, fit, broken⟩
    cases before with
    | nil =>
      cases same
      exact .inl broken
    | cons first others =>
      cases same
      rw [List.forall_mem_cons] at fit
      exact .inr ⟨fit.1, others, other, after, rfl, fit.2, broken⟩
  · rintro (broken | ⟨fit, before, other, after, rfl, fits, broken⟩)
    · exact ⟨[], item, rest, rfl, fun _ member => absurd member List.not_mem_nil, broken⟩
    · exact ⟨item :: before, other, after, rfl, List.forall_mem_cons.mpr ⟨fit, fits⟩, broken⟩

end CrateAudit
