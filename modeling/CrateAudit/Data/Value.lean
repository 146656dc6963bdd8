/-
This file holds the values of settings and of the guidance registry: what a settings
file or a decoded document can contain. Tables keep their entries in the order in
which the keys first appeared. Not every value has a text: a number may have too many
digits to be written, and a nested value may be too deep for the program to follow.
-/

import CrateAudit.Data.Moment
import CrateAudit.Number.Integer
import CrateAudit.Number.Shortest
import CrateAudit.Text.Quoted

namespace CrateAudit

/-- A value of unknown shape. -/
inductive Value where
  | null
  | boolean (value : Bool)
  | integer (value : Int)
  | float (value : Binary64)
  | string (value : String)
  | moment (value : Moment)
  | list (items : List Value)
  | table (entries : List (String × Value))
  deriving Repr

/-- The entries of a table, in order. -/
abbrev Table := List (String × Value)

namespace Table

/-- Adds an entry, in the place of an earlier one with the same key. -/
def insert (key : String) (value : Value) : Table → Table
  | [] => [(key, value)]
  | entry :: rest =>
    if entry.1 == key then (key, value) :: rest else entry :: insert key value rest

theorem lookup_insert_self (key : String) (value : Value) (table : Table) :
    List.lookup key (insert key value table) = some value := by
  induction table with
  | nil => simp [insert]
  | cons entry rest inductionHypothesis =>
    unfold insert
    split
    · simp
    · rename_i different
      obtain ⟨name, held⟩ := entry
      have apart : (key == name) = false := by
        simp only [beq_iff_eq] at different
        simpa using fun equal => different equal.symm
      simp [List.lookup_cons, apart, inductionHypothesis]

theorem lookup_insert_other {key other : String} (different : other ≠ key) (value : Value)
    (table : Table) : List.lookup other (insert key value table) = List.lookup other table := by
  have apart : (other == key) = false := by simpa using different
  induction table with
  | nil => simp [insert, List.lookup_cons, apart]
  | cons entry rest inductionHypothesis =>
    obtain ⟨name, held⟩ := entry
    unfold insert
    split
    · rename_i same
      simp only [beq_iff_eq] at same
      subst same
      simp [List.lookup_cons, apart]
    · simp [List.lookup_cons, inductionHypothesis]

end Table

namespace Value

/-- The entries of a table. -/
def asTable? : Value → Option Table
  | .table entries => some entries
  | _ => none

/-- Whether the value counts as true: anything but nothing, `false`, zero and the empty
text, list and table. -/
def isTruthy : Value → Bool
  | .null => false
  | .boolean value => value
  | .integer value => value != 0
  | .float value => !value.isZero
  | .string value => !value.isEmpty
  | .moment _ => true
  | .list items => !items.isEmpty
  | .table entries => !entries.isEmpty

def booleanText (value : Bool) : String :=
  if value then "True" else "False"

mutual

/-- The value as it is shown inside a list or after a complaint: texts are quoted. -/
def quoted : Value → String
  | .null => "None"
  | .boolean value => booleanText value
  | .integer value => toString value
  | .float value => value.text
  | .string value => Text.quoted value
  | .moment value => value.constructorText
  | .list items => "[" ++ ", ".intercalate (quotedItems items) ++ "]"
  | .table entries => "\x7b" ++ ", ".intercalate (quotedEntries entries) ++ "\x7d"

def quotedItems : List Value → List String
  | [] => []
  | item :: rest => item.quoted :: quotedItems rest

def quotedEntries : List (String × Value) → List String
  | [] => []
  | (key, value) :: rest => (Text.quoted key ++ ": " ++ value.quoted) :: quotedEntries rest

end

/-- The value as a text, if it has one: a text is itself, a moment is written as usual, anything
else is shown as inside a list. -/
def text : Value → String
  | .string value => value
  | .moment value => value.text
  | other => other.quoted

/-! ### Values that have no text -/

/-- Why a value has no text. -/
inductive TextFault where
  | tooManyDigits
  | nestedTooDeep
  deriving DecidableEq, Repr

def TextFault.message : TextFault → String
  | .tooManyDigits => Number.tooLongMessage none
  | .nestedTooDeep => "maximum recursion depth exceeded while getting the repr of an object"

/-- Whether the value holds other values. -/
def isNested : Value → Bool
  | .list _ | .table _ => true
  | _ => false

mutual

/-- Whether a number in the value has more digits than are written. -/
def isTooLong : Value → Bool
  | .integer number => Number.isTooLong number
  | .list items => anyIsTooLong items
  | .table entries => anyEntryIsTooLong entries
  | _ => false

def anyIsTooLong : List Value → Bool
  | [] => false
  | item :: rest => item.isTooLong || anyIsTooLong rest

def anyEntryIsTooLong : List (String × Value) → Bool
  | [] => false
  | (_, value) :: rest => value.isTooLong || anyEntryIsTooLong rest

end

/-- What keeps the value from being shown, given which nested values are too deep for that. -/
def textFault? (tooDeep : Value → Bool) (value : Value) : Option TextFault :=
  if value.isNested && tooDeep value then some .nestedTooDeep
  else if value.isTooLong then some .tooManyDigits
  else none

/-- The text of a value that has one. -/
def text? (tooDeep : Value → Bool) (value : Value) : Except TextFault String :=
  match value.textFault? tooDeep with
  | some fault => .error fault
  | none => .ok value.text

theorem textFault?_string (tooDeep : Value → Bool) (value : String) :
    (Value.string value).textFault? tooDeep = none := by
  simp [textFault?, isNested, isTooLong]

theorem text_string (value : String) : (Value.string value).text = value := by
  simp [text]

theorem text?_string (tooDeep : Value → Bool) (value : String) :
    (Value.string value).text? tooDeep = .ok value := by
  rw [text?, textFault?_string, text]

theorem text?_eq_ok {tooDeep : Value → Bool} {value : Value} {shown : String} :
    value.text? tooDeep = .ok shown ↔ value.textFault? tooDeep = none ∧ value.text = shown := by
  rw [text?]
  cases value.textFault? tooDeep with
  | some fault => simp
  | none => simp

end Value

end CrateAudit
