/-
This file says what becomes of the settings that have a default. Such a setting holds
what a table says about it if that is of its type, else its default, with one complaint;
it is never a reason to refuse the table. Only a list with a number that is too long to
be written cannot be read.
-/

import CrateAudit.Proofs.ReadSettings

namespace CrateAudit.Settings

/-- A setting that has a default: what it holds for a value, if that is of its type, and the
complaint about any other value. -/
structure TypedSetting (Held : Type) where
  key : String
  default : Held
  write : Held → Value
  accept? : Value → Option Held
  complaint : Warning
  get : Settings → Held

namespace TypedSetting

variable {Held : Type} (setting : TypedSetting Held) (table : Table)

/-- What the table says about the setting, or else its default. -/
def entry : Value :=
  (table.lookup setting.key).getD (setting.write setting.default)

def isRejected : Bool :=
  (setting.accept? (setting.entry table)).isNone

/-- What the setting is to hold: what the table says if that is accepted, else the default. -/
def resolved : Held :=
  (setting.accept? (setting.entry table)).getD setting.default

/-- The default passes the check. -/
def AcceptsDefault : Prop :=
  setting.accept? (setting.write setting.default) = some setting.default

end TypedSetting

/-- A whole number above zero. A truth value is no number. -/
def wholeNumber (key : String) (default : Nat) (get : Settings → Nat) : TypedSetting Nat where
  key
  default
  write number := .integer number
  accept?
    | .integer number => if 0 < number then some number.toNat else none
    | _ => none
  complaint := .notPositive key default
  get

def truthValue (key : String) (default : Bool) (get : Settings → Bool) : TypedSetting Bool where
  key
  default
  write := .boolean
  accept?
    | .boolean value => some value
    | _ => none
  complaint := .notBoolean key default
  get

/-- What an entry of a list counts as: numbers and truth values count as texts. -/
def plainText? : Value → Option String
  | .string text => some text
  | .integer number => some (toString number)
  | .boolean value => some (Value.booleanText value)
  | _ => none

/-- A list of texts. What counts as no text is left out. -/
def textList (key : String) (default : List String) (get : Settings → List String) :
    TypedSetting (List String) where
  key
  default
  write texts := .list (texts.map .string)
  accept?
    | .list items => some (items.filterMap plainText?)
    | _ => none
  complaint := .notList key
  get

def wholeNumbers : List (TypedSetting Nat) :=
  [wholeNumber "max_file_lines" 300 maxFileLines,
    wholeNumber "max_function_lines" 50 maxFunctionLines,
    wholeNumber "max_line_length" 100 maxLineLength,
    wholeNumber "max_workers" 8 maxWorkers]

def truthValues : List (TypedSetting Bool) :=
  [truthValue "ban_underscore_bandaid" true banUnderscoreBandaid,
    truthValue "require_documentation" true requireDocumentation,
    truthValue "allow_unwrap" false allowUnwrap,
    truthValue "allow_expect" false allowExpect]

def textLists : List (TypedSetting (List String)) :=
  [textList "allowed_editions" ["2021", "2024"] allowedEditions,
    textList "required_dependencies" [] requiredDependencies,
    textList "exclude_dirs" ["target"] excludedDirectories]

/-- A warning for each of some settings that does not hold what the table says about it. -/
def rejections {Held : Type} (table : Table) (settings : List (TypedSetting Held)) : List Warning :=
  (settings.filter (·.isRejected table)).map (·.complaint)

/-- The keys that settings have. -/
def keys : List String :=
  wholeNumbers.map (·.key) ++ truthValues.map (·.key) ++ textLists.map (·.key) ++
    ["enabled_kinds", "custom_rules"]

section

variable {Held : Type} {table : Table}

/-- The warnings about one setting, if it is read as its type tells. -/
def TypedSetting.warnings (setting : TypedSetting Held) (table : Table) : List Warning :=
  if setting.isRejected table then [setting.complaint] else []

theorem rejections_eq_flatMap (settings : List (TypedSetting Held)) :
    rejections table settings = settings.flatMap (·.warnings table) := by
  induction settings with
  | nil => rfl
  | cons setting rest inductionHypothesis =>
    rw [List.flatMap_cons, ← inductionHypothesis, rejections, rejections, List.filter_cons,
      TypedSetting.warnings]
    split
    · rfl
    · rfl

/-- What reading one setting gives: its default without an entry, else what is accepted, or a
warning and the default. -/
def TypedSetting.noted (setting : TypedSetting Held) : Option Value → Noted Held
  | none => ([], setting.default)
  | some value =>
    match setting.accept? value with
    | some held => ([], held)
    | none => ([setting.complaint], setting.default)

theorem TypedSetting.noted_lookup {setting : TypedSetting Held}
    (accepts : setting.AcceptsDefault) : setting.noted (table.lookup setting.key) =
      (setting.warnings table, setting.resolved table) := by
  rw [warnings, isRejected, resolved, entry]
  cases table.lookup setting.key with
  | none =>
    rw [Option.getD_none, accepts]
    rfl
  | some value =>
    rw [Option.getD_some, noted]
    cases setting.accept? value <;> rfl

theorem acceptsDefault_wholeNumber {key : String} {default : Nat} {get : Settings → Nat}
    (positive : 0 < default) : (wholeNumber key default get).AcceptsDefault := by
  have positive' : (0 : Int) < default := Int.natCast_pos.mpr positive
  rw [TypedSetting.AcceptsDefault, wholeNumber]
  simp only [if_pos positive', Int.toNat_natCast]

theorem acceptsDefault_textList (key : String) (default : List String)
    (get : Settings → List String) : (textList key default get).AcceptsDefault := by
  have texts : (default.map Value.string).filterMap plainText? = default := by
    rw [List.filterMap_map]
    exact List.filterMap_some
  rw [TypedSetting.AcceptsDefault, textList]
  simp only [texts]

theorem readPositive_eq {key : String} {default : Nat} (positive : 0 < default)
    (get : Settings → Nat) :
    readPositive table key default = ((wholeNumber key default get).warnings table,
      (wholeNumber key default get).resolved table) := by
  rw [← TypedSetting.noted_lookup (acceptsDefault_wholeNumber positive), readPositive]
  change _ = (wholeNumber key default get).noted (table.lookup key)
  cases table.lookup key with
  | none => rfl
  | some value =>
    cases value with
    | integer number =>
      match number with
      | .ofNat 0 => rfl
      | .ofNat (before + 1) =>
        have accepted : (wholeNumber key default get).accept? (.integer (.ofNat (before + 1))) =
            some (before + 1) := if_pos (Int.natCast_pos.mpr before.succ_pos)
        simp only [TypedSetting.noted, accepted]
      | .negSucc _ => rfl
    | _ => rfl

theorem readBoolean_eq (key : String) (default : Bool) (get : Settings → Bool) :
    readBoolean table key default = ((truthValue key default get).warnings table,
      (truthValue key default get).resolved table) := by
  have accepts : (truthValue key default get).AcceptsDefault := rfl
  rw [← TypedSetting.noted_lookup accepts, readBoolean]
  change _ = (truthValue key default get).noted (table.lookup key)
  cases table.lookup key with
  | none => rfl
  | some value => cases value <;> rfl

/-! ### Lists of texts -/

/-- The setting lists a number that is too long to be written. -/
def TypedSetting.ListsLongNumber (setting : TypedSetting Held) (table : Table) : Prop :=
  ∃ items number, table.lookup setting.key = some (.list items) ∧ .integer number ∈ items ∧
    Number.isTooLong number = true

theorem entryText?_eq_ok {value : Value} (short : ∀ number, value = .integer number →
    Number.isTooLong number = false) : entryText? value = .ok (plainText? value) := by
  cases value with
  | integer number => simp [entryText?, plainText?, short number rfl]
  | _ => rfl

theorem entryTexts_eq_ok {items : List Value} (short : ∀ number, .integer number ∈ items →
    Number.isTooLong number = false) : entryTexts items = .ok (items.filterMap plainText?) := by
  induction items with
  | nil => rfl
  | cons item rest inductionHypothesis =>
    have here : entryText? item = .ok (plainText? item) :=
      entryText?_eq_ok fun number same => short number (same ▸ List.mem_cons_self)
    rw [entryTexts, here, inductionHypothesis fun number member =>
      short number (List.mem_cons_of_mem _ member), List.filterMap_cons]
    cases plainText? item <;> rfl

theorem entryTexts_eq_error {items : List Value} {number : Int}
    (member : .integer number ∈ items) (long : Number.isTooLong number = true) :
    entryTexts items = .error .tooManyDigits := by
  induction items with
  | nil => cases member
  | cons item rest inductionHypothesis =>
    rw [entryTexts]
    rcases List.mem_cons.mp member with rfl | member
    · rw [entryText?, if_pos long]
      rfl
    · rw [inductionHypothesis member]
      cases item with
      | integer other =>
        rw [entryText?]
        split <;> rfl
      | _ => rfl

theorem readTexts_eq (key : String) (default : List String) (get : Settings → List String)
    (short : ¬ (textList key default get).ListsLongNumber table) :
    readTexts table key default = ((textList key default get).warnings table,
      .ok ((textList key default get).resolved table)) := by
  have noted : readTexts table key default =
      (((textList key default get).noted (table.lookup key)).1,
        .ok ((textList key default get).noted (table.lookup key)).2) := by
    rw [readTexts]
    cases listed : table.lookup key with
    | none => rfl
    | some value =>
      cases value with
      | list items =>
        dsimp only
        rw [entryTexts_eq_ok fun number member => Bool.eq_false_iff.mpr fun long =>
          short ⟨items, number, listed, member, long⟩]
        rfl
      | _ => rfl
  have resolved : (textList key default get).noted (table.lookup key) =
      ((textList key default get).warnings table, (textList key default get).resolved table) :=
    TypedSetting.noted_lookup (acceptsDefault_textList key default get)
  rw [noted, resolved]

/-- The lists are read unless one of them has a number that is too long. -/
theorem readTextLists_eq (short : ∀ setting ∈ textLists, ¬ setting.ListsLongNumber table) :
    readTextLists table = (rejections table textLists,
      .ok ⟨(textList "allowed_editions" ["2021", "2024"] allowedEditions).resolved table,
        (textList "required_dependencies" [] requiredDependencies).resolved table,
        (textList "exclude_dirs" ["target"] excludedDirectories).resolved table⟩) := by
  simp only [textLists, List.forall_mem_cons] at short
  rw [readTextLists, readTexts_eq _ _ allowedEditions short.1,
    readTexts_eq _ _ requiredDependencies short.2.1,
    readTexts_eq _ _ excludedDirectories short.2.2.1, rejections_eq_flatMap]
  rfl

theorem Noted.andThen_snd {Problem First Second : Type} {first : Noted (Except Problem First)}
    {next : First → Noted (Except Problem Second)} :
    (first.andThen next).2 = first.2.bind fun value => (next value).2 := by
  rw [Noted.andThen]
  cases first.2 <;> rfl

theorem readTextLists_eq_error {setting : TypedSetting (List String)}
    (member : setting ∈ textLists) (long : setting.ListsLongNumber table) :
    (readTextLists table).2 = .error .tooManyDigits := by
  obtain ⟨items, number, listed, inside, long⟩ := long
  have broken (default : List String) :
      (readTexts table setting.key default).2 = .error .tooManyDigits := by
    rw [readTexts, listed]
    exact entryTexts_eq_error inside long
  have onlyLong (key : String) (default : List String) :
      (∃ texts, (readTexts table key default).2 = .ok texts) ∨
        (readTexts table key default).2 = .error .tooManyDigits := by
    by_cases others : (textList key default allowedEditions).ListsLongNumber table
    · obtain ⟨items, number, listed, inside, long⟩ := others
      refine .inr ?_
      rw [readTexts, show table.lookup key = some (.list items) from listed]
      exact entryTexts_eq_error inside long
    · exact .inl ⟨_, congrArg Prod.snd (readTexts_eq key default allowedEditions others)⟩
  simp only [readTextLists, Noted.andThen_snd]
  simp only [textLists, List.mem_cons, List.not_mem_nil, or_false] at member
  rcases member with rfl | rfl | rfl
  · rw [show (readTexts table "allowed_editions" ["2021", "2024"]).2 = _ from broken _]
    rfl
  · rw [show (readTexts table "required_dependencies" []).2 = _ from broken _]
    rcases onlyLong "allowed_editions" ["2021", "2024"] with ⟨_, read⟩ | read <;> rw [read] <;> rfl
  · rw [show (readTexts table "exclude_dirs" ["target"]).2 = _ from broken _]
    rcases onlyLong "allowed_editions" ["2021", "2024"] with ⟨_, read⟩ | read
    · rcases onlyLong "required_dependencies" [] with ⟨_, read'⟩ | read' <;>
        rw [read, read'] <;> rfl
    · rw [read]
      rfl

/-! ### All settings with a default -/

/-- Each setting holds what the table says of its type, or its default. -/
theorem readTyped_eq (short : ∀ setting ∈ textLists, ¬ setting.ListsLongNumber table)
    (kinds : Option (List Kind)) (customRules : List CustomRule) (rules : RuleSet) :
    readTyped table kinds customRules rules =
      (rejections table wholeNumbers ++ rejections table truthValues ++
        rejections table textLists,
      .ok
        { source := table
          kinds
          customRules
          rules
          maxFileLines := (wholeNumber "max_file_lines" 300 maxFileLines).resolved table
          maxFunctionLines := (wholeNumber "max_function_lines" 50 maxFunctionLines).resolved table
          maxLineLength := (wholeNumber "max_line_length" 100 maxLineLength).resolved table
          maxWorkers := (wholeNumber "max_workers" 8 maxWorkers).resolved table
          banUnderscoreBandaid :=
            (truthValue "ban_underscore_bandaid" true banUnderscoreBandaid).resolved table
          requireDocumentation :=
            (truthValue "require_documentation" true requireDocumentation).resolved table
          allowUnwrap := (truthValue "allow_unwrap" false allowUnwrap).resolved table
          allowExpect := (truthValue "allow_expect" false allowExpect).resolved table
          allowedEditions :=
            (textList "allowed_editions" ["2021", "2024"] allowedEditions).resolved table
          requiredDependencies :=
            (textList "required_dependencies" [] requiredDependencies).resolved table
          excludedDirectories :=
            (textList "exclude_dirs" ["target"] excludedDirectories).resolved table }) := by
  simp only [readTyped, readTextLists_eq short,
    readPositive_eq (show 0 < 300 by decide) maxFileLines,
    readPositive_eq (show 0 < 50 by decide) maxFunctionLines,
    readPositive_eq (show 0 < 100 by decide) maxLineLength,
    readPositive_eq (show 0 < 8 by decide) maxWorkers,
    readBoolean_eq "ban_underscore_bandaid" _ banUnderscoreBandaid,
    readBoolean_eq "require_documentation" _ requireDocumentation,
    readBoolean_eq "allow_unwrap" _ allowUnwrap, readBoolean_eq "allow_expect" _ allowExpect,
    rejections_eq_flatMap, wholeNumbers, truthValues, List.flatMap_cons, List.flatMap_nil,
    List.append_assoc, List.append_nil]
  rfl

theorem resolved_wholeNumber_pos {setting : TypedSetting Nat} (member : setting ∈ wholeNumbers) :
    0 < setting.resolved table := by
  obtain ⟨key, default, get, rfl, positive⟩ : ∃ key default get,
      setting = wholeNumber key default get ∧ 0 < default := by
    simp only [wholeNumbers, List.mem_cons, List.not_mem_nil, or_false] at member
    rcases member with rfl | rfl | rfl | rfl
    · exact ⟨_, _, _, rfl, by decide⟩
    · exact ⟨_, _, _, rfl, by decide⟩
    · exact ⟨_, _, _, rfl, by decide⟩
    · exact ⟨_, _, _, rfl, by decide⟩
  rw [TypedSetting.resolved]
  generalize (wholeNumber key default get).entry table = value
  simp only [wholeNumber]
  split
  · split
    · rename_i above
      exact Int.lt_toNat.mpr above
    · exact positive
  · exact positive

/-- The keys that are known are those of the settings. -/
theorem mem_knownKeys_iff {key : String} : key ∈ knownKeys ↔ key ∈ keys :=
  (show knownKeys.Perm keys by decide).mem_iff

/-- A warning for each key of a table that no setting has. -/
def unknownWarnings (table : Table) : List Warning :=
  ((table.map (·.1)).filter (· ∉ keys)).map .unknownKey

theorem unknownKeys_eq (table : Table) : unknownKeys table = unknownWarnings table := by
  rw [unknownKeys, unknownWarnings, List.filter_map, List.map_map]
  congr 1
  refine List.filter_congr fun entry _ => ?_
  rw [Bool.eq_iff_iff, Function.comp, decide_eq_true_eq, ← mem_knownKeys_iff,
    ← List.contains_iff_mem, Bool.not_eq_true', Bool.not_eq_true]

end

end CrateAudit.Settings
