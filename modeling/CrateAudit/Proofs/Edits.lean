/-
This file says what edits do to the lines of a file: each line that an edit names is
replaced or dropped, and every other line stays as it is, in order. Edits are made from
the bottom up, so that no edit moves a line that another one names; with one edit a
line the order does not show.
-/

import CrateAudit.Proofs.Lines

namespace CrateAudit.Fix

/-! ### The lines that edits leave -/

/-- The edit of a line. -/
def editOf? (edits : List Edit) (number : Int) : Option Edit :=
  edits.find? fun edit => edit.line == number

/-- What edits leave of things that stand for lines, the first of them for the line `number`;
`replace` puts a new text in the place of one. -/
def editedFrom {Item : Type} (replace : Item → Line → Item) (edits : List Edit) (number : Int) :
    List Item → List Item
  | [] => []
  | item :: rest =>
    match editOf? edits number with
    | none => item :: editedFrom replace edits (number + 1) rest
    | some edit =>
      match edit.replacement with
      | none => editedFrom replace edits (number + 1) rest
      | some text => replace item text :: editedFrom replace edits (number + 1) rest

/-- The lines of a file after edits. -/
def editedLines (edits : List Edit) (lines : List Line) : List Line :=
  editedFrom (fun _ text => text) edits 1 lines

section

variable {Item Other : Type} {replace : Item → Line → Item}

theorem editedFrom_append (edits : List Edit) (number : Int) (first second : List Item) :
    editedFrom replace edits number (first ++ second) =
      editedFrom replace edits number first ++
        editedFrom replace edits (number + first.length) second := by
  induction first generalizing number with
  | nil => simp [editedFrom]
  | cons item first inductionHypothesis =>
    have shift : number + ((first.length + 1 : Nat) : Int) = number + 1 + first.length := by
      omega
    simp only [List.cons_append, editedFrom, inductionHypothesis, List.length_cons, shift]
    split
    · rfl
    · split <;> rfl

/-- Only the edits of the lines at hand matter. -/
theorem editedFrom_congr {edits edits' : List Edit} {number : Int} {items : List Item}
    (same : ∀ line, number ≤ line → line < number + items.length →
      editOf? edits line = editOf? edits' line) :
    editedFrom replace edits number items = editedFrom replace edits' number items := by
  induction items generalizing number with
  | nil => rfl
  | cons item rest inductionHypothesis =>
    simp only [List.length_cons] at same
    have later := @inductionHypothesis (number + 1) fun line low high =>
      same line (by omega) (by omega)
    simp only [editedFrom, same number (by omega) (by omega), later]

theorem editedFrom_of_none {edits : List Edit} {number : Int} {items : List Item}
    (none : ∀ line, number ≤ line → line < number + items.length → editOf? edits line = none) :
    editedFrom replace edits number items = items := by
  induction items generalizing number with
  | nil => rfl
  | cons item rest inductionHypothesis =>
    simp only [List.length_cons] at none
    have later := @inductionHypothesis (number + 1) fun line low high =>
      none line (by omega) (by omega)
    simp only [editedFrom, none number (by omega) (by omega), later]

theorem editedFrom_nil (number : Int) (items : List Item) :
    editedFrom replace [] number items = items :=
  editedFrom_of_none fun _ _ _ => rfl

/-- Edits of things are edits of what is read from them. -/
theorem map_editedFrom {replace' : Other → Line → Other} {read : Item → Other}
    (commutes : ∀ item text, read (replace item text) = replace' (read item) text)
    (edits : List Edit) (number : Int) (items : List Item) :
    (editedFrom replace edits number items).map read =
      editedFrom replace' edits number (items.map read) := by
  induction items generalizing number with
  | nil => rfl
  | cons item rest inductionHypothesis =>
    simp only [List.map_cons, editedFrom]
    split
    · rw [List.map_cons, inductionHypothesis]
    · split
      · exact inductionHypothesis _
      · rw [List.map_cons, inductionHypothesis, commutes]

/-- What edits leave is a thing that no edit names, or a new text in the place of one. -/
theorem mem_editedFrom_iff {edits : List Edit} {number : Int} {items : List Item} {item : Item} :
    item ∈ editedFrom replace edits number items ↔
      ∃ (index : Nat) (own : Item), items[index]? = some own ∧
        ((editOf? edits (number + index) = none ∧ item = own) ∨
          ∃ edit text, editOf? edits (number + index) = some edit ∧
            edit.replacement = some text ∧ item = replace own text) := by
  induction items generalizing number with
  | nil => simp [editedFrom]
  | cons first rest inductionHypothesis =>
    have split (motive : Nat → Item → Prop) :
        (∃ (index : Nat) (own : Item), (first :: rest)[index]? = some own ∧ motive index own) ↔
          motive 0 first ∨
            ∃ (index : Nat) (own : Item), rest[index]? = some own ∧ motive (index + 1) own := by
      constructor
      · rintro ⟨index, own, stands, holds⟩
        cases index with
        | zero =>
          cases stands
          exact Or.inl holds
        | succ index => exact Or.inr ⟨index, own, stands, holds⟩
      · rintro (holds | ⟨index, own, stands, holds⟩)
        · exact ⟨0, first, rfl, holds⟩
        · exact ⟨index + 1, own, stands, holds⟩
    have shift (index : Nat) : number + ((index + 1 : Nat) : Int) = number + 1 + index := by
      omega
    rw [split]
    simp only [shift, ← inductionHypothesis, Int.natCast_zero, Int.add_zero]
    rw [editedFrom]
    cases found : editOf? edits number with
    | none => simp
    | some edit => cases replaced : edit.replacement <;> simp [replaced]

end

/-! ### Making edits -/

theorem editOf?_eq_some {edits : List Edit} (distinct : (edits.map (·.line)).Nodup)
    {edit : Edit} {number : Int} :
    editOf? edits number = some edit ↔ edit ∈ edits ∧ edit.line = number := by
  constructor
  · intro found
    exact ⟨List.mem_of_find?_eq_some found, by simpa using List.find?_some found⟩
  · rintro ⟨member, rfl⟩
    induction edits with
    | nil => cases member
    | cons first rest inductionHypothesis =>
      rw [List.map_cons, List.nodup_cons] at distinct
      rcases List.mem_cons.mp member with rfl | later
      · simp [editOf?]
      · have other : first.line ≠ edit.line := fun same =>
          distinct.1 (same ▸ List.mem_map_of_mem later)
        rw [editOf?, List.find?_cons_of_neg (by simpa using other)]
        exact inductionHypothesis distinct.2 later

theorem editOf?_eq_none {edits : List Edit} {number : Int} :
    editOf? edits number = none ↔ ∀ edit ∈ edits, edit.line ≠ number := by
  simp [editOf?, List.find?_eq_none]

/-- The order of the edits does not show. -/
theorem editOf?_perm {edits edits' : List Edit} (distinct : (edits.map (·.line)).Nodup)
    (same : edits'.Perm edits) (number : Int) :
    editOf? edits' number = editOf? edits number := by
  have distinct' : (edits'.map (·.line)).Nodup := (same.map _).nodup_iff.mpr distinct
  refine Option.ext fun edit => ?_
  rw [editOf?_eq_some distinct', editOf?_eq_some distinct, same.mem_iff]

/-- One edit replaces its line or drops it. -/
theorem applyEdit?_append {before after : List Line} {line : Line} {edit : Edit}
    (place : edit.line = (before.length : Int) + 1) :
    applyEdit? (before ++ line :: after) edit =
      some (before ++ (edit.replacement.toList ++ after)) := by
  have index : lineIndex? (before ++ line :: after).length edit.line = some before.length := by
    simp only [lineIndex?, List.length_append, List.length_cons, place]
    rw [if_pos (by omega), if_pos (by omega)]
    simp
  rw [applyEdit?, index, Option.map_some]
  cases edit.replacement with
  | none =>
    rw [List.eraseIdx_append_of_length_le (Nat.le_refl _), Nat.sub_self]
    rfl
  | some text => simp

/-- Edits above a line leave it and what follows as they are. -/
theorem editedLines_append_of_lt {edits : List Edit} {before after : List Line}
    (above : ∀ edit ∈ edits, edit.line ≤ before.length) :
    editedLines edits (before ++ after) = editedLines edits before ++ after := by
  rw [editedLines, editedFrom_append, ← editedLines]
  refine congrArg (editedLines edits before ++ ·) (editedFrom_of_none fun number low _ => ?_)
  rw [editOf?_eq_none]
  intro edit member same
  have bound := above edit member
  omega

/-- A line of a file stands between those before it and those after it. -/
theorem exists_split_at {lines : List Line} {number : Int} (low : 1 ≤ number)
    (high : number ≤ lines.length) :
    ∃ before line after, lines = before ++ line :: after ∧
      number = (before.length : Int) + 1 := by
  have bound : (number - 1).toNat < lines.length := by omega
  refine ⟨lines.take (number - 1).toNat, lines[(number - 1).toNat],
    lines.drop ((number - 1).toNat + 1), ?_, ?_⟩
  · rw [List.getElem_cons_drop, List.take_append_drop]
  · rw [List.length_take]
    omega

/-- One more edit, below all others, replaces its line or drops it. -/
theorem editedLines_cons_of_above {edit : Edit} {edits : List Edit} {before after : List Line}
    {line : Line} (place : edit.line = (before.length : Int) + 1)
    (above : ∀ other ∈ edits, other.line ≤ before.length) :
    editedLines (edit :: edits) (before ++ line :: after) =
      editedLines edits before ++ (edit.replacement.toList ++ after) := by
  have own : editOf? (edit :: edits) (1 + (before.length : Int)) = some edit := by
    rw [editOf?, List.find?_cons_of_pos]
    rw [beq_iff_eq]
    omega
  have others : ∀ number : Int, number ≠ edit.line →
      editOf? (edit :: edits) number = editOf? edits number := by
    intro number apart
    rw [editOf?, List.find?_cons_of_neg (by simpa using Ne.symm apart)]
    rfl
  have noneBelow : ∀ number : Int, (before.length : Int) < number →
      editOf? edits number = none := by
    intro number low
    rw [editOf?_eq_none]
    intro other member same
    have bound := above other member
    omega
  have unchangedAbove : editedFrom (fun _ text => text) (edit :: edits) 1 before =
      editedLines edits before :=
    editedFrom_congr fun number low high => others number (by omega)
  have unchangedBelow : editedFrom (fun _ text => text) (edit :: edits)
      (1 + (before.length : Int) + 1) after = after :=
    editedFrom_of_none fun number low high => by
      rw [others number (by omega), noneBelow number (by omega)]
  rw [editedLines, editedFrom_append, unchangedAbove]
  simp only [editedFrom, own, unchangedBelow]
  cases edit.replacement <;> rfl

/-- Edits from the bottom up leave what all of them leave at once. -/
theorem foldlM_applyEdit? {edits : List Edit} {lines : List Line}
    (descending : edits.Pairwise fun first second => second.line < first.line)
    (inside : ∀ edit ∈ edits, 1 ≤ edit.line ∧ edit.line ≤ lines.length) :
    edits.foldlM applyEdit? lines = some (editedLines edits lines) := by
  induction edits generalizing lines with
  | nil => simp [editedLines, editedFrom_nil]
  | cons edit rest inductionHypothesis =>
    rw [List.pairwise_cons] at descending
    have here := inside edit List.mem_cons_self
    obtain ⟨before, line, after, rfl, place⟩ := exists_split_at here.1 here.2
    have above : ∀ other ∈ rest, other.line ≤ before.length := by
      intro other member
      have below := descending.1 other member
      omega
    have later := @inductionHypothesis (before ++ (edit.replacement.toList ++ after))
      descending.2 fun other member => ⟨(inside other (List.mem_cons_of_mem _ member)).1, by
        have bound := above other member
        rw [List.length_append]
        omega⟩
    rw [List.foldlM_cons, applyEdit?_append place, Option.bind_eq_bind, Option.bind_some, later,
      editedLines_append_of_lt above, editedLines_cons_of_above place above]

/-- Edits with different lines inside a file can be made, and leave what all of them leave at
once. -/
theorem applyEdits?_eq {source : Source} {edits : List Edit}
    (distinct : (edits.map (·.line)).Nodup)
    (inside : ∀ edit ∈ edits, 1 ≤ edit.line ∧ edit.line ≤ source.lines.length) :
    applyEdits? source edits =
      some (joinLines source.content (editedLines edits source.lines)) := by
  have sorted : (bottomUp edits).Perm edits := List.mergeSort_perm _ _
  have ordered : (bottomUp edits).Pairwise fun first second =>
      decide (second.line ≤ first.line) = true := by
    refine List.pairwise_mergeSort ?_ ?_ edits
    · intro first second third atMost atMost'
      rw [decide_eq_true_iff] at *
      exact Int.le_trans atMost' atMost
    · intro first second
      rw [Bool.or_eq_true, decide_eq_true_iff, decide_eq_true_iff]
      exact Int.le_total _ _
  have descending : (bottomUp edits).Pairwise fun first second => second.line < first.line := by
    have apart : (bottomUp edits).Pairwise fun first second => first.line ≠ second.line :=
      List.pairwise_map.mp ((sorted.map _).nodup_iff.mpr distinct)
    refine ordered.imp₂ ?_ apart
    intro first second atMost other
    have bound : second.line ≤ first.line := by simpa using atMost
    omega
  rw [applyEdits?, foldlM_applyEdit? descending fun edit member =>
    inside edit (sorted.mem_iff.mp member), Option.map_some]
  have same : editedLines (bottomUp edits) source.lines = editedLines edits source.lines :=
    editedFrom_congr fun number _ _ => editOf?_perm distinct sorted number
  rw [same]

end CrateAudit.Fix
