/-
This file says which groups a search pattern is sure to capture: those that lie on every
way that it has. Wherever the pattern is found, such a group has a text.
-/

import CrateAudit.Proofs.Reaching

namespace CrateAudit

namespace Place

/-- Whether a group has been captured on the way to a place. -/
def Holds (place : Place) (index : Nat) : Prop :=
  (place.groups.lookup index).isSome = true

theorem holds_capture {place : Place} {own first index : Nat} :
    (place.capture own first).Holds index ↔ own = index ∨ place.Holds index := by
  rw [Holds, capture, List.lookup_cons]
  by_cases same : index = own
  · simp [same]
  · have apart : (index == own) = false := beq_eq_false_iff_ne.mpr same
    rw [apart]
    exact ⟨Or.inr, fun held => held.resolve_left fun same' => same same'.symm⟩

theorem groups_of_back? {count : Nat} {place earlier : Place}
    (back : place.back? count = some earlier) : earlier.groups = place.groups := by
  induction count generalizing place with
  | zero =>
    cases back
    rfl
  | succ count inductionHypothesis =>
    obtain ⟨offset, before, after, groups⟩ := place
    cases before with
    | nil => cases back
    | cons character rest => exact (inductionHypothesis back).trans rfl

end Place

namespace Regex

variable {regex : Regex} {index : Nat}

/-- Whether every way of a pattern captures a group. -/
def captures (index : Nat) : Regex → Bool
  | .never => true
  | .empty | .one _ _ | .anchor _ | .reference _ _ => false
  | .sequence first second => first.captures index || second.captures index
  | .choice first second => first.captures index && second.captures index
  | .group own body => own == index || body.captures index
  | .repetition body least _ _ => 0 < least && body.captures index
  | .atomic body => body.captures index
  | .ahead body negated => !negated && body.captures index
  | .behind _ body negated => !negated && body.captures index

/-- What each round keeps, all rounds keep. -/
theorem holds_of_rounds {step : Place → Place → Prop}
    (keeps : ∀ place next, step place next → place.Holds index → next.Holds index)
    {count : Nat} {place next : Place} (rounds : Rounds step count place next)
    (held : place.Holds index) : next.Holds index := by
  induction count generalizing place with
  | zero => exact rounds ▸ held
  | succ count inductionHypothesis =>
    obtain ⟨middle, here, later⟩ := rounds
    exact inductionHypothesis later (keeps _ _ here held)

/-- A way keeps the groups that were captured before it and captures those that every way does. -/
theorem holds_of_reaches {place next : Place} (way : Reaches regex place next)
    (held : regex.captures index = true ∨ place.Holds index) : next.Holds index := by
  induction regex generalizing place next with
  | empty => exact way ▸ held.resolve_left Bool.false_ne_true
  | never => exact way.elim
  | one test ignoreCase =>
    obtain ⟨character, _, passes⟩ := way
    rw [Place.Holds, passes.groups]
    exact held.resolve_left Bool.false_ne_true
  | anchor kind => exact way.2 ▸ held.resolve_left Bool.false_ne_true
  | sequence first second keeps keeps' =>
    obtain ⟨middle, here, there⟩ := way
    rw [captures, Bool.or_eq_true, or_assoc] at held
    rcases held with captured | captured | before
    · exact keeps' there (Or.inr (keeps here (Or.inl captured)))
    · exact keeps' there (Or.inl captured)
    · exact keeps' there (Or.inr (keeps here (Or.inr before)))
  | choice first second keeps keeps' =>
    rw [captures, Bool.and_eq_true] at held
    rcases way with taken | taken
    · exact keeps taken (held.imp_left And.left)
    · exact keeps' taken (held.imp_left And.right)
  | group own body keeps =>
    obtain ⟨inner, there, rfl⟩ := way
    rw [captures, Bool.or_eq_true, beq_iff_eq, or_assoc] at held
    exact Place.holds_capture.mpr (held.imp_right fun held => keeps there held)
  | reference own ignoreCase =>
    obtain ⟨text, _, consumed⟩ := way
    obtain ⟨_, passes⟩ := Place.exists_passes_of_consume? consumed
    rw [Place.Holds, passes.groups]
    exact held.resolve_left Bool.false_ne_true
  | repetition body least most greedy keeps =>
    obtain ⟨count, enough, rounds⟩ := way
    have kept : ∀ place next, Reaches body place next → place.Holds index → next.Holds index :=
      fun _ _ here before => keeps here (Or.inr before)
    rw [captures, Bool.and_eq_true, decide_eq_true_eq] at held
    rcases held with ⟨some, captured⟩ | before
    · -- The first round captures the group.
      obtain ⟨more, rfl⟩ := Nat.exists_eq_succ_of_ne_zero (show count ≠ 0 by omega)
      obtain ⟨middle, here, later⟩ := rounds
      exact holds_of_rounds kept later (keeps here (Or.inl captured))
    · exact holds_of_rounds kept rounds before
  | atomic body keeps => exact keeps way held
  | ahead body negated keeps =>
    rw [captures, Bool.and_eq_true] at held
    cases negated with
    | true => exact way ▸ held.resolve_left fun captured => Bool.false_ne_true captured.1
    | false =>
      obtain ⟨inner, there, rfl⟩ := way
      have kept : inner.Holds index := keeps there (held.imp_left And.right)
      exact kept
  | behind width body negated keeps =>
    rw [captures, Bool.and_eq_true] at held
    cases negated with
    | true => exact way ▸ held.resolve_left fun captured => Bool.false_ne_true captured.1
    | false =>
      obtain ⟨earlier, inner, back, there, rfl⟩ := way
      have kept : inner.Holds index := keeps there (held.imp And.right fun before => by
        rwa [Place.Holds, Place.groups_of_back? back])
      exact kept

/-! ### Groups of what is found -/

theorem holds_of_matchAt? (sure : regex.captures index = true) {advancing : Bool} {place : Place}
    {found : Match} (matched : regex.matchAt? advancing place = some found) :
    found.final.Holds index :=
  holds_of_reaches (reaches_of_matchAt? matched).2 (Or.inl sure)

theorem holds_of_searchFrom (sure : regex.captures index = true) {advancing : Bool} {offset : Nat}
    {before after : List Char} {found : Match}
    (matched : regex.searchFrom advancing offset before after = some found) :
    found.final.Holds index := by
  obtain ⟨place, _, matched, _⟩ := exists_matchAt?_of_searchFrom matched
  exact holds_of_matchAt? sure matched

theorem holds_of_mem_matchesFrom (sure : regex.captures index = true) {bound : Nat}
    {advancing : Bool} {place : Place} {found : Match}
    (member : found ∈ regex.matchesFrom bound advancing place) : found.final.Holds index := by
  induction bound generalizing advancing place with
  | zero => cases member
  | succ bound inductionHypothesis =>
    rw [matchesFrom] at member
    split at member
    · cases member
    · rename_i first matched
      rcases List.mem_cons.mp member with rfl | later
      · exact holds_of_searchFrom sure matched
      · exact inductionHypothesis later

theorem exists_group? {found : Match} (held : found.final.Holds index) :
    ∃ text, found.group? index = some text := by
  obtain ⟨span, captured⟩ := Option.isSome_iff_exists.mp held
  exact ⟨_, by rw [Match.group?, Place.captured?, captured, Option.map_some]⟩

end Regex

end CrateAudit
