/-
This file compares the scan of a manifest with the scan of the same manifest after comments
were added to some of its lines. The crates that it declares are the same, since their lines
are read without comments. The edition is looked for in the whole line instead, so that a
comment can name the edition that the line itself does not ask for. Nothing else in a comment
matters, and no comment makes a manifest report more than before.
-/

import CrateAudit.Proofs.Findings
import CrateAudit.Proofs.ReadSettings
import CrateAudit.Proofs.Search
import CrateAudit.Scan.Manifest
import Mathlib.Data.List.DropRight

namespace CrateAudit

namespace Text

/-! ### Blanks at the end of a line -/

theorem trimEnd_append_of_filled {last : Char} (filled : isBlank last = false)
    (before after : Line) :
    trimEnd (before ++ last :: after) = before ++ last :: trimEnd after := by
  have stops : (last :: before.reverse).dropWhile isBlank = last :: before.reverse :=
    List.dropWhile_cons_of_neg (by simp [filled])
  simp only [trimEnd, List.reverse_append, List.reverse_cons, List.append_assoc,
    List.singleton_append, List.dropWhile_append, stops]
  split
  · rename_i empty
    simp [List.isEmpty_iff.mp empty]
  · simp

theorem trimEnd_eq_rdropWhile (line : Line) : trimEnd line = line.rdropWhile isBlank := rfl

theorem trimStart_append_of_ne_nil {line : Line} (filled : trimStart line ≠ []) (more : Line) :
    trimStart (line ++ more) = trimStart line ++ more := by
  rw [trimStart, List.dropWhile_append, if_neg (by simpa [trimStart] using filled), trimStart]

theorem trimStart_append_of_eq_nil {line : Line} (blank : trimStart line = []) (more : Line) :
    trimStart (line ++ more) = trimStart more := by
  rw [trimStart, List.dropWhile_append, if_pos (by simpa [trimStart] using blank), trimStart]

theorem trim_append_blank {last : Char} (blank : isBlank last = true) (line : Line) :
    trim (line ++ [last]) = trim line := by
  rw [trim, trim]
  by_cases filled : trimStart line = []
  · rw [trimStart_append_of_eq_nil filled, filled, trimStart,
      List.dropWhile_cons_of_pos blank, List.dropWhile_nil]
  · rw [trimStart_append_of_ne_nil filled, trimEnd_eq_rdropWhile,
      List.rdropWhile_concat_pos isBlank _ last blank, ← trimEnd_eq_rdropWhile]

/-- A text begins with a word before another character exactly if what stands before it does. -/
theorem prefix_append_cons_iff {word before after : Line} {stop : Char} (apart : stop ∉ word) :
    word <+: before ++ stop :: after ↔ word <+: before := by
  constructor
  · intro begins
    have upTo : before ++ [stop] <+: before ++ stop :: after := ⟨after, by simp⟩
    rcases List.prefix_or_prefix_of_prefix begins upTo with shorter | longer
    · rcases List.prefix_concat_iff.mp shorter with rfl | begins
      · exact absurd (List.mem_append_right before (List.mem_singleton_self stop)) apart
      · exact begins
    · have member := List.mem_append_right before (List.mem_singleton_self stop)
      exact absurd (longer.subset member) apart
  · exact fun begins => begins.trans (List.prefix_append before _)

end Text

namespace Scan

/-! ### Lines with comments -/

/-- A line as it is, or with a comment after it. -/
inductive Commented (line : Line) : Line → Prop where
  | bare : Commented line line
  | comment (text : Line) : Commented line (line ++ (" # ".toList ++ text))

variable {line line' : Line} {lines lines' : List Line} {source source' : Source}
  {settings : Settings}

/-- A line is the same as before without its comment. -/
theorem Commented.withoutComment (commented : Commented line line') :
    Scan.withoutComment line' = Scan.withoutComment line := by
  cases commented with
  | bare => rfl
  | comment text =>
    rw [Scan.withoutComment, Scan.withoutComment, Text.upTo, Text.upTo, List.takeWhile_append]
    split
    · have cut : (" # ".toList ++ text).takeWhile (· != '#') = [' '] := rfl
      rename_i whole
      rw [cut, List.IsPrefix.eq_of_length (List.takeWhile_prefix _) whole]
      exact Text.trim_append_blank rfl line
    · rfl

/-- A comment stands at the end of a trimmed line, after a blank. Where nothing else stands on the
line, it begins with the sign of a comment. -/
theorem trim_comment (line text : Line) :
    (Text.trim line = [] ∧ ∃ rest, Text.trim (line ++ (" # ".toList ++ text)) = '#' :: rest) ∨
      ∃ rest, Text.trim (line ++ (" # ".toList ++ text)) = Text.trim line ++ rest ∧
        rest.head?.any Text.isBlank = true := by
  by_cases blank : Text.trimStart line = []
  · refine Or.inl ⟨by rw [Text.trim, blank]; rfl, Text.trimEnd (' ' :: text), ?_⟩
    have sign : Text.isBlank '#' = false := rfl
    rw [Text.trim, Text.trimStart_append_of_eq_nil blank]
    exact Text.trimEnd_append_of_filled sign [] (' ' :: text)
  · have whole : (Text.trimStart line).rdropWhile Text.isBlank ++ _ = _ :=
      List.rdropWhile_append_rtakeWhile
    have isBlank := fun character => List.mem_rtakeWhile_imp (p := Text.isBlank)
      (l := Text.trimStart line) (x := character)
    generalize (Text.trimStart line).rtakeWhile Text.isBlank = margin at whole isBlank
    refine Or.inr ⟨margin ++ (' ' :: '#' :: Text.trimEnd (' ' :: text)), ?_, ?_⟩
    · have split : Text.trimStart line ++ (" # ".toList ++ text) =
          (Text.trimStart line ++ [' ']) ++ '#' :: (' ' :: text) := by
        simp
      rw [Text.trim, Text.trimStart_append_of_ne_nil blank, split,
        Text.trimEnd_append_of_filled rfl, ← List.append_assoc, Text.trim,
        Text.trimEnd_eq_rdropWhile (Text.trimStart line), whole, List.append_assoc]
      rfl
    · cases margin with
      | nil => rfl
      | cons first margin => exact isBlank first List.mem_cons_self

/-- A trimmed line begins with the same words as before. -/
theorem Commented.prefix_trim_iff (commented : Commented line line') {word : Line}
    (filled : word ≠ []) (solid : word.any Text.isBlank = false)
    (apart : '#' ∉ word) : word <+: Text.trim line' ↔ word <+: Text.trim line := by
  cases commented with
  | bare => exact Iff.rfl
  | comment text =>
    rcases trim_comment line text with ⟨empty, rest, same⟩ | ⟨rest, same, blank⟩
    · rw [same, empty, List.prefix_nil]
      refine ⟨fun begins => ?_, fun empty => absurd empty filled⟩
      obtain ⟨first, later, rfl⟩ := List.exists_cons_of_ne_nil filled
      exact absurd ((List.cons_prefix_cons.mp begins).1 ▸ List.mem_cons_self) apart
    · obtain ⟨first, more, rfl⟩ : ∃ first more, rest = first :: more := by
        cases rest with
        | nil => cases blank
        | cons first more => exact ⟨first, more, rfl⟩
      rw [same]
      refine Text.prefix_append_cons_iff fun member => ?_
      exact List.any_eq_false.mp solid first member blank

theorem Commented.opens_edition_iff (commented : Commented line line') :
    "edition".toList <+: Text.trim line' ↔ "edition".toList <+: Text.trim line :=
  commented.prefix_trim_iff (by decide) (by decide) (by decide)

theorem Commented.opens_package_iff (commented : Commented line line') :
    "[package]".toList <+: Text.trim line' ↔ "[package]".toList <+: Text.trim line :=
  commented.prefix_trim_iff (by decide) (by decide) (by decide)

/-! ### The crates that are declared -/

theorem declaredFrom_commented (commented : List.Forall₂ Commented lines lines') (inside : Bool) :
    declaredFrom inside lines' = declaredFrom inside lines := by
  induction commented generalizing inside with
  | nil => rfl
  | cons first _ inductionHypothesis =>
    simp only [declaredFrom, first.withoutComment, inductionHypothesis]

theorem declaredDependencies_commented (commented : List.Forall₂ Commented lines lines') :
    declaredDependencies lines' = declaredDependencies lines := by
  rw [declaredDependencies, declaredDependencies, declaredFrom_commented commented]

theorem wholeFileLine_commented (commented : List.Forall₂ Commented lines lines') :
    wholeFileLine lines' = wholeFileLine lines := by
  cases commented <;> rfl

theorem checkDependencies_commented (path : source'.path = source.path)
    (commented : List.Forall₂ Commented source.lines source'.lines) :
    checkDependencies settings source' = checkDependencies settings source := by
  rw [checkDependencies, checkDependencies, declaredDependencies_commented commented,
    wholeFileLine_commented commented, path]

/-! ### The edition -/

/-- The first line that begins with the word for the edition. -/
structure IsEditionLine (lines : List Line) (index : Nat) (line : Line) : Prop where
  here : lines[index]? = some line
  opens : "edition".toList <+: Text.trim line
  first : ∀ earlier < index, ∀ other, lines[earlier]? = some other →
    ¬ "edition".toList <+: Text.trim other

/-- An edition line mentions a workspace or one of the editions that are allowed. -/
def AcceptsEdition (settings : Settings) (line : Line) : Prop :=
  "workspace".toList <:+: Text.trim line ∨
    ∃ edition ∈ settings.allowedEditions, edition.toList <:+: Text.trim line

theorem editionLine?_eq_some {text : Line} {index : Nat} :
    editionLine? lines = some (text, index) ↔
      ∃ line, Text.trim line = text ∧ IsEditionLine lines index line := by
  simp only [editionLine?, List.find?_eq_some_iff_getElem, List.isPrefixOf_iff_prefix,
    List.getElem_zipIdx, List.length_zipIdx, List.length_map, Prod.mk.injEq]
  constructor
  · rintro ⟨opens, _, inside, ⟨here, rfl⟩, first⟩
    rw [List.getElem_map] at here
    rw [Nat.zero_add]
    refine ⟨_, here, List.getElem?_eq_getElem (by simpa using inside), here ▸ opens, ?_⟩
    intro earlier before other found
    obtain ⟨_, rfl⟩ := List.getElem?_eq_some_iff.mp found
    have apart := first earlier before
    rwa [List.getElem_map, Bool.not_eq_true', ← Bool.not_eq_true, List.isPrefixOf_iff_prefix]
      at apart
  · rintro ⟨line, rfl, here, opens, first⟩
    obtain ⟨inside, rfl⟩ := List.getElem?_eq_some_iff.mp here
    refine ⟨opens, index, by simpa using inside, ⟨List.getElem_map _, Nat.zero_add index⟩, ?_⟩
    intro earlier before
    have apart := first earlier before _ (List.getElem?_eq_getElem (before.trans inside))
    rwa [List.getElem_map, Bool.not_eq_true', ← Bool.not_eq_true, List.isPrefixOf_iff_prefix]

theorem editionLine?_eq_none : editionLine? lines = none ↔
    (lines.any fun line => "edition".toList.isPrefixOf (Text.trim line)) = false := by
  simp only [editionLine?, List.find?_eq_none, List.any_eq_false]
  constructor
  · intro absent line member
    obtain ⟨index, inside, rfl⟩ := List.getElem_of_mem member
    refine absent (Text.trim lines[index], index) ?_
    rw [List.mem_zipIdx_iff_getElem?, List.getElem?_map, List.getElem?_eq_getElem inside]
    rfl
  · rintro absent ⟨text, index⟩ member
    have here := List.mem_zipIdx_iff_getElem?.mp member
    rw [List.getElem?_map] at here
    obtain ⟨line, here, rfl⟩ := Option.map_eq_some_iff.mp here
    exact absent line (List.mem_of_getElem? here)

theorem getElem?_commented (commented : List.Forall₂ Commented lines lines') (index : Nat) :
    Option.Rel Commented lines[index]? lines'[index]? := by
  induction commented generalizing index with
  | nil => exact .none
  | cons first _ inductionHypothesis =>
    cases index with
    | zero => exact .some first
    | succ index => exact inductionHypothesis index

/-- The first edition line stays the first one. -/
theorem IsEditionLine.commented {index : Nat} (first : IsEditionLine lines index line)
    (commented : List.Forall₂ Commented lines lines') :
    ∃ line', IsEditionLine lines' index line' ∧ Commented line line' := by
  have here := getElem?_commented commented index
  rw [first.here] at here
  generalize found : lines'[index]? = found' at here
  cases here with
  | some own =>
    refine ⟨_, ⟨found, own.opens_edition_iff.mpr first.opens, ?_⟩, own⟩
    intro earlier before other found
    have there := getElem?_commented commented earlier
    rw [found] at there
    generalize found : lines[earlier]? = found' at there
    cases there with
    | some own =>
      exact fun opens => first.first earlier before _ found (own.opens_edition_iff.mp opens)

/-- A comment takes no edition away. -/
theorem AcceptsEdition.commented (accepts : AcceptsEdition settings line)
    (opens : "edition".toList <+: Text.trim line) (commented : Commented line line') :
    AcceptsEdition settings line' := by
  have more : Text.trim line <+: Text.trim line' := by
    cases commented with
    | bare => exact List.prefix_rfl
    | comment text =>
      rcases trim_comment line text with ⟨empty, _⟩ | ⟨rest, same, _⟩
      · rw [empty] at opens
        cases List.prefix_nil.mp opens
      · exact ⟨rest, same.symm⟩
  rcases accepts with workspace | ⟨edition, allowed, found⟩
  · exact Or.inl (workspace.trans more.isInfix)
  · exact Or.inr ⟨edition, allowed, found.trans more.isInfix⟩

theorem acceptsEdition_iff : AcceptsEdition settings line ↔
    (Text.includes "workspace".toList (Text.trim line) ||
      settings.allowedEditions.any fun edition =>
        Text.includes edition.toList (Text.trim line)) = true := by
  simp only [AcceptsEdition, Bool.or_eq_true, List.any_eq_true, Text.includes_iff_isInfix]

theorem checkEdition_of_accepts {index : Nat} (first : IsEditionLine source.lines index line)
    (accepts : AcceptsEdition settings line) : checkEdition settings source = [] := by
  have found := editionLine?_eq_some.mpr ⟨line, rfl, first⟩
  simp only [checkEdition, found]
  exact if_pos (acceptsEdition_iff.mp accepts)

theorem checkEdition_of_not_accepts {index : Nat} (first : IsEditionLine source.lines index line)
    (refuses : ¬ AcceptsEdition settings line) : checkEdition settings source =
      [⟨.wrongEdition, source.path, index + 1,
        "Must use Edition " ++ " or ".intercalate settings.allowedEditions, .error⟩] := by
  have found := editionLine?_eq_some.mpr ⟨line, rfl, first⟩
  simp only [checkEdition, found]
  exact if_neg fun accepts => refuses (acceptsEdition_iff.mpr accepts)

/-- A word that begins a line begins a line with comments. -/
theorem any_commented (commented : List.Forall₂ Commented lines lines') {word : Line}
    (alike : ∀ {line line'}, Commented line line' →
      (word <+: Text.trim line' ↔ word <+: Text.trim line)) :
    (lines'.any fun line => word.isPrefixOf (Text.trim line)) =
      lines.any fun line => word.isPrefixOf (Text.trim line) := by
  induction commented with
  | nil => rfl
  | @cons line line' rest rest' first _ inductionHypothesis =>
    have same : word.isPrefixOf (Text.trim line') = word.isPrefixOf (Text.trim line) := by
      rw [Bool.eq_iff_iff, List.isPrefixOf_iff_prefix, List.isPrefixOf_iff_prefix]
      exact alike first
    rw [List.any_cons, List.any_cons, same, inductionHypothesis]

/-- Without an edition line the check does not depend on comments. -/
theorem checkEdition_commented_of_none (path : source'.path = source.path)
    (commented : List.Forall₂ Commented source.lines source'.lines)
    (absent : editionLine? source.lines = none) :
    checkEdition settings source' = checkEdition settings source := by
  have absent' : editionLine? source'.lines = none := by
    rw [editionLine?_eq_none, any_commented commented Commented.opens_edition_iff]
    exact editionLine?_eq_none.mp absent
  have package := any_commented commented Commented.opens_package_iff
  simp only [checkEdition, absent, absent', package, path, wholeFileLine_commented commented]

/-- The comment of the first edition line makes that line one that is accepted. -/
def CommentNamesEdition (settings : Settings) (lines lines' : List Line) : Prop :=
  ∃ index line line', IsEditionLine lines index line ∧ lines'[index]? = some line' ∧
    AcceptsEdition settings line' ∧ ¬ AcceptsEdition settings line

theorem checkEdition_of_commentNamesEdition
    (commented : List.Forall₂ Commented source.lines source'.lines)
    (named : CommentNamesEdition settings source.lines source'.lines) :
    checkEdition settings source' = [] ∧ checkEdition settings source ≠ [] := by
  obtain ⟨index, line, line', first, here, accepts, refuses⟩ := named
  obtain ⟨_, first', _⟩ := first.commented commented
  cases here.symm.trans first'.here
  refine ⟨checkEdition_of_accepts first' accepts, ?_⟩
  rw [checkEdition_of_not_accepts first refuses]
  exact List.cons_ne_nil _ _

theorem checkEdition_of_not_commentNamesEdition (path : source'.path = source.path)
    (commented : List.Forall₂ Commented source.lines source'.lines)
    (unnamed : ¬ CommentNamesEdition settings source.lines source'.lines) :
    checkEdition settings source' = checkEdition settings source := by
  rcases found : editionLine? source.lines with _ | ⟨text, index⟩
  · exact checkEdition_commented_of_none path commented found
  · obtain ⟨line, rfl, first⟩ := editionLine?_eq_some.mp found
    obtain ⟨line', first', own⟩ := first.commented commented
    by_cases accepts : AcceptsEdition settings line
    · rw [checkEdition_of_accepts first accepts,
        checkEdition_of_accepts first' (accepts.commented first.opens own)]
    · have refuses' : ¬ AcceptsEdition settings line' := fun accepts' =>
        unnamed ⟨index, line, line', first, first'.here, accepts', accepts⟩
      rw [checkEdition_of_not_accepts first accepts, checkEdition_of_not_accepts first' refuses',
        path]

/-! ### The whole scan -/

theorem mem_manifest_iff {violation : Violation} : violation ∈ manifest settings source ↔
    (settings.isEnabled .wrongEdition = true ∧ violation ∈ checkEdition settings source) ∨
      (settings.isEnabled .missingDependencies = true ∧
        violation ∈ checkDependencies settings source) := by
  simp only [manifest, Violation.sortInFile, List.mem_mergeSort, List.mem_append,
    List.mem_ite_nil_right]

/-- Comments after some lines of a manifest change nothing about the crates that it declares, and
add nothing to what is reported. The report is the same exactly if not, where the edition is
checked, the comment of the first edition line makes it one that is accepted. -/
theorem manifest_commented_eq_iff {settings : Settings} {source source' : Source}
    (path : source'.path = source.path)
    (commented : List.Forall₂ Commented source.lines source'.lines) :
    declaredDependencies source'.lines = declaredDependencies source.lines ∧
      (∀ violation ∈ manifest settings source', violation ∈ manifest settings source) ∧
      (manifest settings source' = manifest settings source ↔
        (settings.isEnabled .wrongEdition = true →
          ¬ CommentNamesEdition settings source.lines source'.lines)) := by
  have dependencies : checkDependencies settings source' = checkDependencies settings source :=
    checkDependencies_commented path commented
  refine ⟨declaredDependencies_commented commented, fun violation found => ?_,
    fun same enabled named => ?_, fun unnamed => ?_⟩
  · rw [mem_manifest_iff, dependencies] at found
    refine mem_manifest_iff.mpr (found.imp_left fun ⟨enabled, found⟩ => ⟨enabled, ?_⟩)
    by_cases named : CommentNamesEdition settings source.lines source'.lines
    · rw [(checkEdition_of_commentNamesEdition commented named).1] at found
      cases found
    · rwa [← checkEdition_of_not_commentNamesEdition path commented named]
  · obtain ⟨none, some⟩ := checkEdition_of_commentNamesEdition commented named
    obtain ⟨violation, found⟩ := List.exists_mem_of_ne_nil _ some
    have found' := mem_manifest_iff.mpr (Or.inl ⟨enabled, found⟩)
    rw [← same, mem_manifest_iff, none] at found'
    rcases found' with ⟨_, found'⟩ | ⟨_, found'⟩
    · cases found'
    · have own := (of_mem_checkEdition found).2
      rw [(of_mem_checkDependencies found').2] at own
      cases own
  · by_cases enabled : settings.isEnabled .wrongEdition = true
    · rw [manifest, manifest, dependencies,
        checkEdition_of_not_commentNamesEdition path commented (unnamed enabled)]
    · rw [manifest, manifest, dependencies, if_neg enabled, if_neg enabled]

/-- A manifest with a dependency that has a comment. -/
def plainManifest : Source :=
  .ofText "Cargo.toml" "edition = \"2018\"\n\n[dependencies]\nlog = \"0.4\" # new\n".toList

/-- The same manifest with comments after most of its lines. -/
def remarkedManifest : Source :=
  .ofText "Cargo.toml"
    "edition = \"2018\" # old\n # [lib]\n[dependencies]\nlog = \"0.4\" # new # syn = \"2\"\n".toList

theorem manifest_commented_eq_iff_remarkedManifest :
    remarkedManifest.path = plainManifest.path ∧
      List.Forall₂ Commented plainManifest.lines remarkedManifest.lines ∧
      declaredDependencies remarkedManifest.lines = declaredDependencies plainManifest.lines ∧
      (∀ violation ∈ manifest .standard remarkedManifest,
        violation ∈ manifest .standard plainManifest) ∧
      (manifest .standard remarkedManifest = manifest .standard plainManifest ↔
        (Settings.standard.isEnabled .wrongEdition = true →
          ¬ CommentNamesEdition .standard plainManifest.lines remarkedManifest.lines)) := by
  have path : remarkedManifest.path = plainManifest.path := by
    rw [remarkedManifest, plainManifest, Source.ofText, Source.ofText]
  have lines : plainManifest.lines = ["edition = \"2018\"".toList, [], "[dependencies]".toList,
      "log = \"0.4\" # new".toList] := by
    decide
  have lines' : remarkedManifest.lines = [
      "edition = \"2018\"".toList ++ (" # ".toList ++ "old".toList),
      [] ++ (" # ".toList ++ "[lib]".toList), "[dependencies]".toList,
      "log = \"0.4\" # new".toList ++ (" # ".toList ++ "syn = \"2\"".toList)] := by
    decide +kernel
  have commented : List.Forall₂ Commented plainManifest.lines remarkedManifest.lines := by
    rw [lines, lines']
    exact .cons (.comment _) (.cons (.comment _) (.cons .bare (.cons (.comment _) .nil)))
  exact ⟨path, commented, manifest_commented_eq_iff path commented⟩

/-- A manifest that asks for an old edition, with `remark` after that line. -/
def datedManifest (remark : String) : Source :=
  .ofText "Cargo.toml" ("[package]\nname = \"demo\"\nedition = \"2018\"" ++ remark ++ "\n").toList

/-- A comment that names a later edition hides that the manifest asks for an old one. -/
theorem not_reported_datedManifest :
    List.Forall₂ Commented (datedManifest "").lines (datedManifest " # 2021 is next").lines ∧
      manifest .standard (datedManifest "") =
        [⟨.wrongEdition, "Cargo.toml", 3, "Must use Edition 2021 or 2024", .error⟩] ∧
      manifest .standard (datedManifest " # 2021 is next") = [] := by
  refine ⟨.cons .bare (.cons .bare (.cons (.comment "2021 is next".toList) .nil)), ?_, ?_⟩
  · decide +kernel
  · decide +kernel

end Scan

end CrateAudit
