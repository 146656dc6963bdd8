/-
This file compares the two ways in which a manifest declares that it depends on a crate: by an
entry under the header of a table of dependencies, and by a header of its own, which adds the
name of the crate to the name of the table. An entry is found in every table whose name ends
with the word for dependencies. A header is found only if that word is one of the parts of the
name of the table, so that a table for tests or for building takes entries but no headers.
-/

import CrateAudit.Proofs.Enclosing
import CrateAudit.Proofs.ManifestComments
import CrateAudit.Toml.Text

namespace CrateAudit

namespace Text

/-! ### The parts of a name -/

/-- A separator before some parts and between them stands before each of them. -/
theorem cons_intercalate {separator : Char} {part : Line} (parts : List Line) :
    separator :: [separator].intercalate (part :: parts) =
      (part :: parts).flatMap (separator :: ·) := by
  induction parts generalizing part with
  | nil => simp
  | cons next parts inductionHypothesis =>
    rw [List.intercalate_cons_cons, List.flatMap_cons, ← inductionHypothesis]
    simp

theorem splitOn_of_not_mem {separator : Char} {text : Line} (whole : separator ∉ text) :
    text.splitOn separator = [text] := by
  rw [List.splitOn_eq_splitOnP]
  refine List.splitOnP_eq_singleton fun character member => ?_
  exact beq_false_of_ne fun same => whole (same ▸ member)

theorem splitOn_append_cons (separator : Char) (text rest : Line) :
    (text ++ separator :: rest).splitOn separator =
      text.splitOn separator ++ rest.splitOn separator := by
  simp only [List.splitOn_eq_splitOnP]
  exact List.splitOnP_append_cons text rest (beq_self_eq_true separator)

/-- A word is one of the parts of a name exactly if it stands between separators, where one more
is put before the name, and another part after it. -/
theorem mem_splitOn_iff_isInfix {separator : Char} {word name last : Line} (filled : word ≠ [])
    (whole : separator ∉ word) (bare : separator ∉ last) :
    word ∈ name.splitOn separator ↔
      separator :: (word ++ [separator]) <:+: separator :: (name ++ separator :: last) := by
  constructor
  · intro member
    obtain ⟨before, after, parts⟩ := List.append_of_mem member
    have own : separator :: name = (name.splitOn separator).flatMap (separator :: ·) := by
      obtain ⟨first, others, same⟩ :=
        List.exists_cons_of_ne_nil (List.splitOn_ne_nil separator name)
      rw [same, ← cons_intercalate, ← same, List.intercalate_splitOn]
    obtain ⟨more, opens⟩ : ∃ more,
        after.flatMap (separator :: ·) ++ separator :: last = separator :: more := by
      cases after with
      | nil => exact ⟨last, rfl⟩
      | cons part after => exact ⟨_, rfl⟩
    refine ⟨before.flatMap (separator :: ·), more, ?_⟩
    have front : separator :: (name ++ separator :: last) =
        (separator :: name) ++ separator :: last := rfl
    rw [front, own, parts, List.flatMap_append, List.flatMap_cons]
    simp only [List.append_assoc, List.cons_append, List.nil_append, opens]
  · rintro ⟨before, after, same⟩
    have parts := congrArg (List.splitOn separator) same
    rw [← List.nil_append (separator :: (name ++ _)), List.append_assoc, List.cons_append,
      List.append_assoc, List.singleton_append] at parts
    simp only [splitOn_append_cons, splitOn_of_not_mem whole, splitOn_of_not_mem bare,
      List.splitOn_nil] at parts
    -- What stands after the word ends with a part, so the word is not the last one.
    have early := congrArg List.dropLast parts
    rw [← List.append_assoc, List.dropLast_append_of_ne_nil (List.splitOn_ne_nil _ _),
      ← List.append_assoc, List.dropLast_concat] at early
    have member : word ∈ [[]] ++ name.splitOn separator := by
      rw [← early]
      simp
    simpa [filled] using member

/-! ### What stands around a character -/

theorem upTo_of_not_mem {separator : Char} {text : Line} (absent : separator ∉ text) :
    upTo separator text = text := by
  refine List.takeWhile_eq_self_iff.mpr fun character member => ?_
  exact bne_iff_ne.mpr fun same => absent (same ▸ member)

theorem upTo_append_of_not_mem {separator : Char} {text : Line} (absent : separator ∉ text)
    (rest : Line) : upTo separator (text ++ rest) = text ++ upTo separator rest := by
  refine List.takeWhile_append_of_pos fun character member => ?_
  exact bne_iff_ne.mpr fun same => absent (same ▸ member)

theorem upTo_append_cons {separator : Char} {text : Line} (absent : separator ∉ text)
    (rest : Line) : upTo separator (text ++ separator :: rest) = text := by
  rw [upTo_append_of_not_mem absent, upTo, List.takeWhile_cons_of_neg (by simp), List.append_nil]

theorem upTo_append_of_mem {separator : Char} {text : Line} (member : separator ∈ text)
    (rest : Line) : upTo separator (text ++ rest) = upTo separator text := by
  obtain ⟨before, after, rfl, absent⟩ := List.eq_append_cons_of_mem member
  rw [List.append_assoc, List.cons_append, upTo_append_cons absent, upTo_append_cons absent]

theorem afterLast_suffix (separator : Char) (text : Line) : afterLast separator text <:+ text :=
  List.rtakeWhile_suffix _ text

/-- What a text ends with after a separator is what it ends with after the last separator. -/
theorem suffix_append_cons_iff {separator : Char} {word : Line} (whole : separator ∉ word)
    (text last : Line) : word <:+ text ++ separator :: last ↔ word <:+ last := by
  have back : separator ∉ word.reverse := fun member => whole (List.mem_reverse.mp member)
  rw [← List.reverse_prefix, ← List.reverse_prefix, List.reverse_append, List.reverse_cons,
    List.append_assoc, List.singleton_append, prefix_append_cons_iff back]

theorem afterLast_append_cons {separator : Char} {last : Line} (absent : separator ∉ last)
    (text : Line) : afterLast separator (text ++ separator :: last) = last := by
  have back : separator ∉ last.reverse := fun member => absent (List.mem_reverse.mp member)
  have cut := upTo_append_cons back text.reverse
  rw [afterLast, List.reverse_append, List.reverse_cons, List.append_assoc, List.singleton_append]
  exact (congrArg List.reverse cut).trans (List.reverse_reverse last)

/-- Dropping stops at the first character that is kept. -/
theorem dropWhile_append_cons {drops : Char → Bool} {kept : Char} (keeps : drops kept = false)
    (before after : Line) :
    (before ++ kept :: after).dropWhile drops = before.dropWhile drops ++ kept :: after := by
  rw [List.dropWhile_append, List.dropWhile_cons_of_neg (by simp [keeps])]
  split
  · rename_i empty
    rw [List.isEmpty_iff.mp empty, List.nil_append]
  · rfl

theorem trimBy_of_forall {drops : Char → Bool} {text : Line}
    (keeps : ∀ character ∈ text, drops character = false) : trimBy drops text = text := by
  have first : text.dropWhile drops = text := by
    cases text with
    | nil => rfl
    | cons character text =>
      exact List.dropWhile_cons_of_neg (by simp [keeps character List.mem_cons_self])
  have last : text.rdropWhile drops = text :=
    List.rdropWhile_eq_self_iff.mpr fun filled => by simp [keeps _ (List.getLast_mem filled)]
  rw [trimBy, first]
  exact last

end Text

namespace Scan

/-! ### The lines of both forms -/

/-- A name that needs no quotes. -/
structure IsBareName (name : Line) : Prop where
  filled : name ≠ []
  bare : ∀ character ∈ name, Toml.isBareKey character = true

/-- The header with some name. -/
def headerLine (name : Line) : Line :=
  '[' :: (name ++ [']'])

/-- The entry that begins with the name of a crate. -/
def entryLine (crate gap value : Line) : Line :=
  crate ++ (gap ++ '=' :: value)

/-- A line is read as a header. -/
def IsHeader (line : Line) : Prop :=
  (withoutComment line).head? = some '['

theorem isBlank_of_isBareKey {character : Char} (bare : Toml.isBareKey character = true) :
    Text.isBlank character = false := by
  have each : Text.blanks.all (!Toml.isBareKey ·) = true := by decide
  refine Bool.eq_false_iff.mpr fun blank => ?_
  have own := List.all_eq_true.mp each character (Text.mem_blanks blank)
  rw [bare] at own
  cases own

namespace IsBareName

variable {name : Line} (isBare : IsBareName name)

include isBare

theorem not_mem (mark : Char) (other : Toml.isBareKey mark = false) : mark ∉ name := by
  intro member
  rw [isBare.bare mark member] at other
  cases other

theorem isBlank (character : Char) (member : character ∈ name) : Text.isBlank character = false :=
  isBlank_of_isBareKey (isBare.bare character member)

theorem filled_append (rest : Line) : (name ++ rest).head?.all Text.isBlank = false := by
  obtain ⟨first, more, rfl⟩ := List.exists_cons_of_ne_nil isBare.filled
  exact isBare.isBlank first List.mem_cons_self

theorem exists_concat : ∃ front last, name = front ++ [last] ∧ Toml.isBareKey last = true := by
  rcases List.eq_nil_or_concat' name with rfl | ⟨front, last, rfl⟩
  · exact absurd rfl isBare.filled
  · exact ⟨front, last, rfl, isBare.bare last (List.mem_append_right front List.mem_cons_self)⟩

theorem withoutQuotes : Scan.withoutQuotes name = name :=
  Text.trimBy_of_forall fun _ member =>
    decide_eq_false fun same => isBare.not_mem '"' rfl (same ▸ member)

/-- Blanks after a name are trimmed. -/
theorem trim_append {gap : Line} (blank : ∀ character ∈ gap, Text.isBlank character = true) :
    Text.trim (name ++ gap) = name := by
  have empty : Text.trimEnd gap = [] := List.rdropWhile_eq_nil_iff.mpr blank
  have start : Text.trimStart (name ++ gap) = name ++ gap :=
    Text.trimStart_append (fun _ absent => absurd absent List.not_mem_nil)
      (isBare.filled_append gap)
  rw [Text.trim, start]
  obtain ⟨front, last, rfl, bare⟩ := isBare.exists_concat
  rw [List.append_assoc, List.singleton_append,
    Text.trimEnd_append_of_filled (isBlank_of_isBareKey bare), empty]

end IsBareName

/-! ### What is read of a header -/

def isBracket (character : Char) : Bool :=
  character = '[' || character = ']'

theorem isBracket_of_isBareKey {character : Char} (bare : Toml.isBareKey character = true) :
    isBracket character = false := by
  rw [isBracket, Bool.or_eq_false_iff, decide_eq_false_iff_not, decide_eq_false_iff_not]
  constructor
  · rintro rfl
    cases bare
  · rintro rfl
    cases bare

theorem headerText_eq (line : Line) : headerText line = Text.trim (Text.trimBy isBracket line) :=
  rfl

/-- The name of a header as it is read, without brackets or blanks before it. -/
def spelledName (name : Line) : Line :=
  Text.trimStart (name.dropWhile isBracket)

/-- The last character of a name is neither blank nor a bracket. -/
def EndsSolid (name : Line) : Prop :=
  ∃ front last, name = front ++ [last] ∧ Text.isBlank last = false ∧ isBracket last = false

theorem spelledName_append_cons {kept : Char} (solid : Text.isBlank kept = false)
    (inner : isBracket kept = false) (before after : Line) :
    spelledName (before ++ kept :: after) = spelledName before ++ kept :: after := by
  simp only [spelledName, Text.trimStart, Text.dropWhile_append_cons inner,
    Text.dropWhile_append_cons solid]

theorem EndsSolid.spelledName_append {name : Line} (ends : EndsSolid name) (rest : Line) :
    spelledName (name ++ rest) = spelledName name ++ rest := by
  obtain ⟨front, last, rfl, solid, inner⟩ := ends
  rw [List.append_assoc, List.singleton_append, spelledName_append_cons solid inner,
    spelledName_append_cons solid inner, List.append_assoc, List.singleton_append]

theorem withoutComment_headerLine {name : Line} (unmarked : '#' ∉ name) :
    withoutComment (headerLine name) = headerLine name := by
  have unmarked' : '#' ∉ headerLine name := by
    simp [headerLine, unmarked]
  have opened : Text.trimStart (headerLine name) = ('[' :: name) ++ [']'] :=
    List.dropWhile_cons_of_neg (by decide)
  rw [withoutComment, Text.upTo_of_not_mem unmarked', Text.trim, opened,
    Text.trimEnd_append_of_filled (by decide)]
  rfl

theorem headerText_headerLine {name : Line} (ends : EndsSolid name) :
    headerText (headerLine name) = spelledName name := by
  obtain ⟨front, last, rfl, solid, inner⟩ := ends
  have within : Text.trimBy isBracket (headerLine (front ++ [last])) =
      front.dropWhile isBracket ++ [last] := by
    have opened : (headerLine (front ++ [last])).dropWhile isBracket =
        (front.dropWhile isBracket ++ [last]) ++ [']'] := by
      rw [headerLine, List.dropWhile_cons_of_pos (by decide), List.append_assoc,
        List.singleton_append, Text.dropWhile_append_cons inner]
      simp
    rw [Text.trimBy, opened]
    refine (List.rdropWhile_concat_pos isBracket _ ']' (by decide)).trans ?_
    exact List.rdropWhile_concat_neg isBracket _ last (by simp [inner])
  rw [headerText_eq, within, Text.trim, Text.trimStart, Text.dropWhile_append_cons solid,
    Text.trimEnd_append_of_filled solid, spelledName_append_cons solid inner]
  rfl

/-! ### What a line declares -/

/-- A header declares a crate exactly if a table of dependencies is one of the parts before it. -/
theorem headerCrate?_append_cons {name crate : Line} (isBare : IsBareName crate) :
    headerCrate? (name ++ '.' :: crate) =
      if "dependencies".toList ∈ name.splitOn '.' then some crate else none := by
  have parted : '.' ∉ crate := isBare.not_mem '.' rfl
  have found : Text.includes ".dependencies.".toList ('.' :: (name ++ '.' :: crate)) = true ↔
      "dependencies".toList ∈ name.splitOn '.' := by
    rw [Text.includes_iff_isInfix, Text.mem_splitOn_iff_isInfix (by decide) (by decide) parted]
    rfl
  rw [headerCrate?, Text.afterLast_append_cons parted, isBare.withoutQuotes]
  simp only [found]

/-- An entry is no header and declares the crate that it begins with. -/
theorem entryCrate?_entryLine {crate gap : Line} (isBare : IsBareName crate)
    (blank : ∀ character ∈ gap, Text.isBlank character = true) (value : Line) :
    ¬ IsHeader (entryLine crate gap value) ∧
      entryCrate? (withoutComment (entryLine crate gap value)) = some crate := by
  have gap_free (mark : Char) (solid : Text.isBlank mark = false) : mark ∉ gap := by
    intro member
    rw [blank mark member] at solid
    cases solid
  have read : withoutComment (entryLine crate gap value) =
      (crate ++ gap) ++ '=' :: Text.trimEnd (Text.upTo '#' value) := by
    have unmarked : '#' ∉ crate ++ gap ++ ['='] := by
      simp [isBare.not_mem '#' rfl, gap_free '#' rfl]
    have whole : entryLine crate gap value = (crate ++ gap ++ ['=']) ++ value := by
      simp [entryLine]
    have start : Text.trimStart ((crate ++ gap ++ ['=']) ++ Text.upTo '#' value) =
        (crate ++ gap) ++ '=' :: Text.upTo '#' value := by
      simp only [List.append_assoc, List.singleton_append]
      exact Text.trimStart_append (fun _ absent => absurd absent List.not_mem_nil)
        (isBare.filled_append _)
    rw [withoutComment, whole, Text.upTo_append_of_not_mem unmarked, Text.trim, start,
      Text.trimEnd_append_of_filled (by decide)]
  have unsigned : '=' ∉ crate ++ gap := by
    simp [isBare.not_mem '=' rfl, gap_free '=' rfl]
  refine ⟨fun header => ?_, ?_⟩
  · obtain ⟨first, more, rfl⟩ := List.exists_cons_of_ne_nil isBare.filled
    rw [IsHeader, read] at header
    cases header
    exact isBare.not_mem '[' rfl List.mem_cons_self
  · rw [entryCrate?, read, if_pos (by simp), Text.upTo_append_cons unsigned,
      isBare.trim_append blank, isBare.withoutQuotes,
      Text.upTo_of_not_mem (isBare.not_mem '.' rfl)]

/-! ### What the lines of a manifest declare -/

/-- What some lines declare does not depend on the lines after them. -/
theorem exists_state_declaredFrom (inside : Bool) (before : List Line) :
    ∃ state, ∀ rest, declaredFrom inside (before ++ rest) =
      declaredFrom inside before ++ declaredFrom state rest := by
  induction before generalizing inside with
  | nil => exact ⟨inside, fun rest => rfl⟩
  | cons line before inductionHypothesis =>
    simp only [List.cons_append, declaredFrom]
    split
    · obtain ⟨state, later⟩ := inductionHypothesis
        ("dependencies".toList.isSuffixOf (headerText (withoutComment line)))
      exact ⟨state, fun rest => by rw [later, List.append_assoc]⟩
    · obtain ⟨state, later⟩ := inductionHypothesis inside
      exact ⟨state, fun rest => by rw [later, List.append_assoc]⟩

theorem declaredFrom_header (inside : Bool) {line : Line} (header : IsHeader line)
    (rest : List Line) :
    declaredFrom inside (line :: rest) = (headerCrate? (headerText (withoutComment line))).toList ++
      declaredFrom ("dependencies".toList.isSuffixOf (headerText (withoutComment line))) rest :=
  if_pos header

theorem declaredFrom_entry (inside : Bool) {line : Line} (entry : ¬ IsHeader line)
    (rest : List Line) :
    declaredFrom inside (line :: rest) =
      (if inside then (entryCrate? (withoutComment line)).toList else []) ++
        declaredFrom inside rest :=
  if_neg entry

/-- Lines that are no headers leave it as it is whether a table of dependencies is open. -/
theorem declaredFrom_append_of_not_isHeader (inside : Bool) {between : List Line}
    (entries : ∀ line ∈ between, ¬ IsHeader line) (rest : List Line) :
    declaredFrom inside (between ++ rest) =
      declaredFrom inside between ++ declaredFrom inside rest := by
  induction between with
  | nil => rfl
  | cons line between inductionHypothesis =>
    obtain ⟨here, later⟩ := List.forall_mem_cons.mp entries
    rw [List.cons_append, declaredFrom_entry inside here, declaredFrom_entry inside here,
      inductionHypothesis later, List.append_assoc]

/-! ### What is reported -/

/-- The finding that a manifest does not declare a crate. -/
def missingCrate (source : Source) (crate : String) : Violation :=
  ⟨.missingDependencies, source.path, wholeFileLine source.lines,
    "Missing required dependency '" ++ crate ++ "'", .error⟩

theorem missingCrate_injective {source : Source} {crate crate' : String}
    (same : missingCrate source crate = missingCrate source crate') : crate = crate' := by
  have messages := congrArg Violation.message same
  simpa only [missingCrate, String.append_left_inj, String.append_right_inj] using messages

theorem mem_declaredDependencies {crate : String} {lines : List Line} :
    crate ∈ declaredDependencies lines ↔ crate.toList ∈ declaredFrom false lines := by
  rw [declaredDependencies, List.mem_map]
  constructor
  · rintro ⟨name, member, rfl⟩
    rwa [String.toList_ofList]
  · exact fun member => ⟨_, member, String.ofList_toList⟩

/-- A crate is reported as missing exactly if it is required and not declared. -/
theorem missingCrate_mem_manifest_iff {settings : Settings} {source : Source} {crate : String} :
    missingCrate source crate ∈ manifest settings source ↔
      settings.isEnabled .missingDependencies = true ∧ crate ∈ settings.requiredDependencies ∧
        crate ∉ declaredDependencies source.lines := by
  rw [mem_manifest_iff]
  constructor
  · rintro (⟨_, edition⟩ | ⟨enabled, found⟩)
    · cases (of_mem_checkEdition edition).2
    · obtain ⟨name, missing, same⟩ := List.mem_map.mp found
      cases missingCrate_injective same
      simpa [enabled] using missing
  · rintro ⟨enabled, required, absent⟩
    refine Or.inr ⟨enabled, List.mem_map.mpr ⟨crate, ?_, rfl⟩⟩
    simpa [required] using absent

/-! ### Both forms -/

variable {table : Line} {crate : String}

/-- The last part of the name of a table ends with the word for dependencies. -/
def IsDependencyTable (table : Line) : Prop :=
  "dependencies".toList <:+ Text.afterLast '.' table

/-- A manifest has an entry for a crate under the header of a table. -/
def HasEntry (table : Line) (crate : String) (lines : List Line) : Prop :=
  ∃ before between gap value after, (∀ line ∈ between, ¬ IsHeader line) ∧
    (∀ character ∈ gap, Text.isBlank character = true) ∧
    lines = before ++ headerLine table ::
      (between ++ entryLine crate.toList gap value :: after)

/-- The lines around the header of a crate declare the crate themselves. Entries after it count if
the name of the crate ends with the word for dependencies, as its header is then taken for one of a
table. -/
def DeclaredAround (crate : String) (before after : List Line) : Prop :=
  crate ∈ declaredDependencies before ∨
    crate.toList ∈ declaredFrom ("dependencies".toList.isSuffixOf crate.toList) after

theorem IsDependencyTable.exists_front (isTable : IsDependencyTable table) :
    ∃ front, table = front ++ "dependencies".toList := by
  obtain ⟨front, same⟩ := isTable.trans (Text.afterLast_suffix '.' table)
  exact ⟨front, same.symm⟩

theorem IsDependencyTable.endsSolid (isTable : IsDependencyTable table) : EndsSolid table := by
  obtain ⟨front, rfl⟩ := isTable.exists_front
  exact ⟨front ++ "dependencie".toList, 's', by simp, by decide, by decide⟩

theorem IsDependencyTable.suffix_spelledName (isTable : IsDependencyTable table) :
    "dependencies".toList <:+ spelledName table := by
  obtain ⟨front, rfl⟩ := isTable.exists_front
  have spelled : spelledName (front ++ "dependencies".toList) =
      spelledName front ++ "dependencies".toList :=
    spelledName_append_cons (by decide) (by decide) front "ependencies".toList
  rw [spelled]
  exact List.suffix_append _ _

/-- An entry of a table is found. -/
theorem declared_of_hasEntry (isTable : IsDependencyTable table) (unmarked : '#' ∉ table)
    (isBare : IsBareName crate.toList) {lines : List Line} (entry : HasEntry table crate lines) :
    crate ∈ declaredDependencies lines := by
  obtain ⟨before, between, gap, value, after, entries, blank, rfl⟩ := entry
  obtain ⟨state, later⟩ := exists_state_declaredFrom false before
  obtain ⟨noHeader, found⟩ := entryCrate?_entryLine isBare blank value
  have header : IsHeader (headerLine table) := by
    rw [IsHeader, withoutComment_headerLine unmarked]
    rfl
  have opened : "dependencies".toList.isSuffixOf
      (headerText (withoutComment (headerLine table))) = true := by
    rw [withoutComment_headerLine unmarked, headerText_headerLine isTable.endsSolid,
      List.isSuffixOf_iff_suffix]
    exact isTable.suffix_spelledName
  rw [mem_declaredDependencies, later, declaredFrom_header state header, opened,
    declaredFrom_append_of_not_isHeader true entries, declaredFrom_entry true noHeader, found]
  simp

/-- A header of a crate is found exactly if a table of dependencies is one of the parts before it.
-/
theorem declared_headerLine_iff (isTable : IsDependencyTable table) (unmarked : '#' ∉ table)
    (isBare : IsBareName crate.toList) (before after : List Line) :
    crate ∈ declaredDependencies (before ++ headerLine (table ++ '.' :: crate.toList) :: after) ↔
      "dependencies".toList ∈ (spelledName table).splitOn '.' ∨
        DeclaredAround crate before after := by
  obtain ⟨state, later⟩ := exists_state_declaredFrom false before
  have unmarked' : '#' ∉ table ++ '.' :: crate.toList := by
    simp [unmarked, isBare.not_mem '#' rfl]
  have ends : EndsSolid (table ++ '.' :: crate.toList) := by
    obtain ⟨front, last, same, bare⟩ := isBare.exists_concat
    refine ⟨table ++ '.' :: front, last, by rw [same]; simp, isBlank_of_isBareKey bare,
      isBracket_of_isBareKey bare⟩
  have read : withoutComment (headerLine (table ++ '.' :: crate.toList)) =
      headerLine (table ++ '.' :: crate.toList) := withoutComment_headerLine unmarked'
  have text : headerText (headerLine (table ++ '.' :: crate.toList)) =
      spelledName table ++ '.' :: crate.toList := by
    rw [headerText_headerLine ends, isTable.endsSolid.spelledName_append]
  have header : IsHeader (headerLine (table ++ '.' :: crate.toList)) := by
    rw [IsHeader, read]
    rfl
  have opened : "dependencies".toList.isSuffixOf (spelledName table ++ '.' :: crate.toList) =
      "dependencies".toList.isSuffixOf crate.toList := by
    rw [Bool.eq_iff_iff, List.isSuffixOf_iff_suffix, List.isSuffixOf_iff_suffix,
      Text.suffix_append_cons_iff (by decide)]
  rw [mem_declaredDependencies, later, declaredFrom_header state header, read, text, opened,
    headerCrate?_append_cons isBare, List.mem_append, List.mem_append, DeclaredAround,
    mem_declaredDependencies]
  have own : crate.toList ∈ (if "dependencies".toList ∈ (spelledName table).splitOn '.' then
      some crate.toList else none).toList ↔
        "dependencies".toList ∈ (spelledName table).splitOn '.' := by
    split
    · rename_i part
      exact iff_of_true (Option.mem_toList.mpr rfl) part
    · rename_i apart
      exact iff_of_false List.not_mem_nil apart
  rw [own]
  exact or_left_comm

/-- In a table of dependencies an entry for a crate is found, and the crate is not reported as
missing. The header of the crate in this table is found, and keeps the crate from being reported,
exactly if a part of the name of the table is the word for dependencies, or lines around the header
declare the crate as well. Where the name contains the sign of a comment, the header of the crate is
read as the header of the table is. -/
theorem dependency_forms (isTable : IsDependencyTable table) (isBare : IsBareName crate.toList)
    (settings : Settings) :
    ('#' ∉ table →
      (∀ source : Source, HasEntry table crate source.lines →
        crate ∈ declaredDependencies source.lines ∧
          missingCrate source crate ∉ manifest settings source) ∧
      ∀ (source : Source) before after,
        source.lines = before ++ headerLine (table ++ '.' :: crate.toList) :: after →
        (crate ∈ declaredDependencies source.lines ↔
          "dependencies".toList ∈ (spelledName table).splitOn '.' ∨
            DeclaredAround crate before after) ∧
        (missingCrate source crate ∈ manifest settings source ↔
          settings.isEnabled .missingDependencies = true ∧
            crate ∈ settings.requiredDependencies ∧
            "dependencies".toList ∉ (spelledName table).splitOn '.' ∧
            ¬ DeclaredAround crate before after)) ∧
    ('#' ∈ table → withoutComment (headerLine (table ++ '.' :: crate.toList)) =
      withoutComment (headerLine table)) := by
  refine ⟨fun unmarked => ⟨fun source entry => ?_, fun source before after lines => ?_⟩,
    fun marked => ?_⟩
  · have declared := declared_of_hasEntry isTable unmarked isBare entry
    exact ⟨declared, fun missing => (missingCrate_mem_manifest_iff.mp missing).2.2 declared⟩
  · have declared := declared_headerLine_iff isTable unmarked isBare before after
    rw [missingCrate_mem_manifest_iff, lines, declared, not_or]
    exact ⟨Iff.rfl, Iff.rfl⟩
  · have cut (rest : Line) : withoutComment ('[' :: (table ++ rest)) =
        withoutComment ('[' :: table) := by
      rw [withoutComment, ← List.cons_append,
        Text.upTo_append_of_mem (List.mem_cons_of_mem '[' marked), withoutComment]
    rw [headerLine, headerLine, List.append_assoc, cut, cut]

/-- The dependencies of a package on one of its platforms. -/
def unixTable : Line := "target.'cfg(unix)'.dependencies".toList

/-- A manifest with a header for one of these dependencies. -/
def unixManifest : Source :=
  .ofText "Cargo.toml" "[target.'cfg(unix)'.dependencies.libc]\nversion = \"0.2\"\n".toList

/-- Its header is found, since a part of the name of the table is the word for dependencies. -/
theorem dependency_forms_unixTable :
    IsDependencyTable unixTable ∧ IsBareName "libc".toList ∧ '#' ∉ unixTable ∧
      unixManifest.lines = headerLine (unixTable ++ '.' :: "libc".toList) ::
        ["version = \"0.2\"".toList] ∧
      "libc" ∈ declaredDependencies unixManifest.lines := by
  have isTable : IsDependencyTable unixTable := by
    rw [IsDependencyTable, ← List.isSuffixOf_iff_suffix]
    decide
  have isBare : IsBareName "libc".toList := ⟨by decide, List.all_eq_true.mp (by decide)⟩
  have unmarked : '#' ∉ unixTable := by decide
  have lines : unixManifest.lines = headerLine (unixTable ++ '.' :: "libc".toList) ::
      ["version = \"0.2\"".toList] := by
    decide
  have part : "dependencies".toList ∈ (spelledName unixTable).splitOn '.' := by decide
  have forms := ((dependency_forms isTable isBare .standard).1 unmarked).2 unixManifest [] _ lines
  exact ⟨isTable, isBare, unmarked, lines, forms.1.mpr (Or.inl part)⟩

/-- The dependencies of the tests of a package. -/
def testTable : Line := "dev-dependencies".toList

/-- A header for one of them is overlooked, so that the crate is reported as missing, though an
entry for it would have been found. -/
theorem not_declared_testTable :
    IsDependencyTable testTable ∧ IsBareName "serde".toList ∧
      declaredDependencies [headerLine testTable, "serde = \"1\"".toList] = ["serde"] ∧
      declaredDependencies [headerLine (testTable ++ '.' :: "serde".toList)] = [] ∧
      manifest { Settings.standard with requiredDependencies := ["serde"] }
          (.ofText "Cargo.toml" "[dev-dependencies.serde]\nversion = \"1\"\n".toList) =
        [⟨.missingDependencies, "Cargo.toml", 1, "Missing required dependency 'serde'",
          .error⟩] := by
  have isBare : IsBareName "serde".toList := ⟨by decide, List.all_eq_true.mp (by decide)⟩
  refine ⟨?_, isBare, by decide, by decide, by decide +kernel⟩
  rw [IsDependencyTable, ← List.isSuffixOf_iff_suffix]
  decide

end Scan

end CrateAudit
