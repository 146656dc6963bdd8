/-
This file says that a path is read from its text again, whatever names it holds: a name
that a path can hold is neither empty nor one dot, and has no slash, and the names that
are read from a text are all such. So what is shown of a path leads back to it.
-/

import CrateAudit.Proofs.Disks

namespace CrateAudit

namespace Path

/-! ### Names put together and split again -/

theorem splitSlashes_of_free {name : List Char} (free : '/' ∉ name) :
    splitSlashes name = [name] := by
  induction name with
  | nil => rfl
  | cons character rest inductionHypothesis =>
    rw [List.mem_cons, not_or] at free
    rw [splitSlashes.eq_3 character rest fun same => free.1 same.symm,
      inductionHypothesis free.2]

theorem splitSlashes_append {name : List Char} (free : '/' ∉ name) (rest : List Char) :
    splitSlashes (name ++ '/' :: rest) = name :: splitSlashes rest := by
  induction name with
  | nil => rfl
  | cons character tail inductionHypothesis =>
    rw [List.mem_cons, not_or] at free
    rw [List.cons_append, splitSlashes.eq_3 character _ fun same => free.1 same.symm,
      inductionHypothesis free.2]

theorem splitSlashes_intercalate {names : List (List Char)} (nonempty : names ≠ [])
    (free : ∀ name ∈ names, '/' ∉ name) :
    splitSlashes (['/'].intercalate names) = names := by
  induction names with
  | nil => contradiction
  | cons name rest inductionHypothesis =>
    have here := free name List.mem_cons_self
    cases rest with
    | nil =>
      rw [List.intercalate_singleton]
      exact splitSlashes_of_free here
    | cons second others =>
      rw [List.intercalate_cons_cons, List.append_assoc, List.singleton_append,
        splitSlashes_append here,
        inductionHypothesis (List.cons_ne_nil _ _) fun other member =>
          free other (List.mem_cons_of_mem _ member)]

/-- No part between slashes has a slash. -/
theorem slash_not_mem_splitSlashes {text part : List Char} (member : part ∈ splitSlashes text) :
    '/' ∉ part := by
  induction text generalizing part with
  | nil =>
    rw [List.mem_singleton.mp member]
    exact List.not_mem_nil
  | cons character rest inductionHypothesis =>
    by_cases slash : character = '/'
    · subst slash
      rcases List.mem_cons.mp member with rfl | later
      · exact List.not_mem_nil
      · exact inductionHypothesis later
    · rw [splitSlashes.eq_3 character rest slash] at member
      split at member
      · rw [List.mem_singleton.mp member, List.mem_singleton]
        exact Ne.symm slash
      · rename_i name names parts
        rw [parts] at inductionHypothesis
        rcases List.mem_cons.mp member with rfl | later
        · rw [List.mem_cons, not_or]
          exact ⟨Ne.symm slash, inductionHypothesis List.mem_cons_self⟩
        · exact inductionHypothesis (List.mem_cons_of_mem _ later)

/-! ### Names that a path can hold -/

/-- Whether a path can hold a name: it is neither empty nor one dot, and has no slash. -/
def isPathName (name : String) : Bool :=
  isName name.toList && !name.toList.contains '/'

theorem isPathName_iff {name : String} :
    isPathName name = true ↔ name.toList ≠ [] ∧ name.toList ≠ ['.'] ∧ '/' ∉ name.toList := by
  simp [isPathName, isName, and_assoc]

theorem isPathName_of_isProperName {name : String} (proper : isProperName name = true) :
    isPathName name = true := by
  simp only [isProperName, Bool.and_eq_true, Bool.not_eq_true', bne_iff_ne, ne_eq,
    List.contains_eq_mem, decide_eq_false_iff_not] at proper
  obtain ⟨⟨⟨nonempty, notDot⟩, _⟩, free⟩ := proper
  refine isPathName_iff.mpr ⟨fun empty => ?_, fun dot => notDot ?_, free⟩
  · rw [String.toList_eq_nil_iff.mp empty] at nonempty
    exact absurd nonempty (by decide)
  · exact String.toList_inj.mp dot

/-- Whatever text a path is read from, its names are such. -/
theorem isPathName_of_mem_ofText {text name : String} (member : name ∈ (ofText text).names) :
    isPathName name = true := by
  obtain ⟨part, kept, rfl⟩ := List.mem_map.mp member
  obtain ⟨split, counts⟩ := List.mem_filter.mp kept
  rw [isPathName, String.toList_ofList, counts, Bool.true_and, Bool.not_eq_true',
    List.contains_eq_mem, decide_eq_false_iff_not]
  exact slash_not_mem_splitSlashes split

theorem head?_intercalate {names : List String} (nonempty : names ≠ [])
    (held : ∀ name ∈ names, isPathName name = true) :
    ∃ character rest, (['/'].intercalate (names.map String.toList)) = character :: rest ∧
      character ≠ '/' := by
  cases names with
  | nil => contradiction
  | cons name others =>
    obtain ⟨filled, _, free⟩ := isPathName_iff.mp (held name List.mem_cons_self)
    obtain ⟨character, tail, shape⟩ := List.exists_cons_of_ne_nil filled
    have apart : character ≠ '/' := fun same => free (by rw [shape, same]; simp)
    rw [List.map_cons, shape]
    cases others with
    | nil => exact ⟨character, tail, by simp, apart⟩
    | cons second more =>
      refine ⟨character, tail ++ ['/'] ++ ['/'].intercalate ((second :: more).map String.toList),
        ?_, apart⟩
      rw [List.map_cons, List.intercalate_cons_cons]
      rfl

/-- The text of a path with names is its start with the names between slashes. -/
theorem toList_text {start : PathStart} {names : List String} (nonempty : names ≠ [])
    (held : ∀ name ∈ names, isPathName name = true) :
    (text ⟨start, names⟩).toList =
      (startText start).toList ++ ['/'].intercalate (names.map String.toList) := by
  obtain ⟨character, rest, shape, _⟩ := head?_intercalate nonempty held
  have joined : (startText start ++ "/".intercalate names).toList =
      (startText start).toList ++ ['/'].intercalate (names.map String.toList) := by
    rw [String.toList_append, String.toList_intercalate]
    rfl
  have filled : (startText start ++ "/".intercalate names).isEmpty = false := by
    rw [← Bool.not_eq_true]
    intro empty
    rw [String.isEmpty_iff, ← String.toList_eq_nil_iff, joined, shape] at empty
    simp at empty
  rw [text, filled]
  exact joined

/-- Slashes in front of a text that starts with another character are counted. -/
theorem ofText_of_slashes {text : String} {count : Nat} {character : Char} {rest : List Char}
    (shape : text.toList = List.replicate count '/' ++ character :: rest)
    (apart : character ≠ '/') :
    ofText text =
      ⟨startOf count, ((splitSlashes (character :: rest)).filter isName).map String.ofList⟩ := by
  have taken : text.toList.takeWhile (· = '/') = List.replicate count '/' := by
    rw [shape, List.takeWhile_append_of_pos (by simp), List.takeWhile_cons_of_neg (by simp [apart]),
      List.append_nil]
  have dropped : text.toList.dropWhile (· = '/') = character :: rest := by
    rw [shape, List.dropWhile_append_of_pos (by simp), List.dropWhile_cons_of_neg (by simp [apart])]
  rw [ofText, taken, dropped, List.length_replicate]

/-- A path is read from its text again. -/
theorem ofText_text {path : Path} (held : ∀ name ∈ path.names, isPathName name = true) :
    ofText path.text = path := by
  obtain ⟨start, names⟩ := path
  by_cases empty : names = []
  · subst empty
    cases start <;> decide
  obtain ⟨character, rest, shape, apart⟩ := head?_intercalate empty held
  have whole : (text ⟨start, names⟩).toList = _ := toList_text empty held
  obtain ⟨count, slashes, counted⟩ : ∃ count, (startText start).toList = List.replicate count '/' ∧
      startOf count = start := by
    cases start with
    | relative => exact ⟨0, rfl, rfl⟩
    | root => exact ⟨1, rfl, rfl⟩
    | doubleRoot => exact ⟨2, rfl, rfl⟩
  have kept : (names.map String.toList).filter isName = names.map String.toList := by
    rw [List.filter_eq_self]
    intro name member
    obtain ⟨own, inside, rfl⟩ := List.mem_map.mp member
    exact (Bool.and_eq_true _ _ ▸ held own inside).1
  rw [ofText_of_slashes (slashes ▸ shape ▸ whole) apart, counted, ← shape,
    splitSlashes_intercalate (by simpa using empty), kept, List.map_map]
  · simp [Function.comp_def, String.ofList_toList]
  · intro name member
    obtain ⟨own, inside, rfl⟩ := List.mem_map.mp member
    exact (isPathName_iff.mp (held own inside)).2.2

/-- No two paths have one text. -/
theorem eq_of_text {path path' : Path} (same : path.text = path'.text)
    (held : ∀ name ∈ path.names, isPathName name = true)
    (held' : ∀ name ∈ path'.names, isPathName name = true) : path = path' := by
  rw [← ofText_text held, ← ofText_text held', same]

/-- A path from a root is shown with a slash in front. -/
theorem exists_slash_text {path : Path} (absolute : path.start ≠ .relative) :
    ∃ rest, path.text.toList = '/' :: rest := by
  have filled (start : String) (tail : List Char) (shape : start.toList = '/' :: tail) :
      (start ++ "/".intercalate path.names).isEmpty = false := by
    rw [← Bool.not_eq_true]
    intro empty
    rw [String.isEmpty_iff, ← String.toList_eq_nil_iff, String.toList_append, shape] at empty
    cases empty
  rw [text]
  cases start : path.start with
  | relative => exact absurd start absolute
  | root =>
    rw [startText, filled "/" [] rfl, if_neg Bool.false_ne_true, String.toList_append]
    exact ⟨_, rfl⟩
  | doubleRoot =>
    rw [startText, filled "//" ['/'] rfl, if_neg Bool.false_ne_true, String.toList_append]
    exact ⟨_, rfl⟩

/-- A path from a root is not shown like one that starts wherever one is. -/
theorem text_ne_of_absolute {path : Path} (absolute : path.start ≠ .relative)
    {names : List String} (nonempty : names ≠ [])
    (held : ∀ name ∈ names, isPathName name = true) :
    path.text ≠ text ⟨.relative, names⟩ := by
  intro same
  obtain ⟨rest, shape⟩ := exists_slash_text absolute
  obtain ⟨character, rest', shape', apart⟩ := head?_intercalate nonempty held
  rw [same, toList_text nonempty held, shape'] at shape
  exact apart (List.cons.inj shape).1

/-- The last of names that a path can hold has no slash. -/
theorem slash_not_mem_name {path : Path} (held : ∀ name ∈ path.names, isPathName name = true) :
    '/' ∉ path.name.toList := by
  rw [name]
  cases last : path.names.getLast? with
  | none => simp
  | some own => exact (isPathName_iff.mp (held own (List.mem_of_getLast? last))).2.2

end Path

end CrateAudit
