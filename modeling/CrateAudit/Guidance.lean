/-
This file answers what to do about each kind of violation, from a registry with an
entry for each kind. A registry may come from anywhere, so an entry may have any
shape; what cannot be used is a fault that names what is wrong with it.
-/

import CrateAudit.Data.Value
import CrateAudit.Violation

namespace CrateAudit

/-- A key of a registry. A key that is no text is the tag of no kind; what matters is which keys can
be compared with it, namely those of its sort, and its place among them. -/
inductive Guidance.Key where
  | text (tag : String)
  | other (sort : Nat) (place : Int)
  deriving DecidableEq, Repr

/-- A registry of guidance: entries by key, in the order of the document, and which values are nested
too deeply to be shown. -/
structure Guidance where
  entries : List (Guidance.Key × Value)
  tooDeep : Value → Bool := fun _ => false

namespace Guidance

/-- Why a lookup fails. -/
inductive Fault where
  | entryNotTable
  | pairsExpected
  | noFields
  | priorityNotNumber
  | priorityUnreadable
  | priorityInfinite
  | keysNotComparable
  | unshown (cause : Value.TextFault)
  deriving DecidableEq, Repr

/-- The registry with the entries of a table. -/
def ofTable (table : Table) : Guidance where
  entries := table.map fun entry => (.text entry.1, entry.2)

/-- The registry of a document; a document that is no table has no entries. -/
def ofDocument (document : Value) : Guidance :=
  .ofTable (document.asTable?.getD [])

/-- The key of the entry for kinds that have none of their own. -/
def defaultKey : Key := .text "_default"

/-- The two members of a pair: a list of two, a text of two characters or the keys of a table
with two entries. -/
def pair? : Value → Except Fault (Value × Value)
  | .list [key, value] => .ok (key, value)
  | .list _ => .error .pairsExpected
  | .string text =>
    match text.toList with
    | [key, value] => .ok (.string (String.singleton key), .string (String.singleton value))
    | _ => .error .pairsExpected
  | .table [(key, _), (value, _)] => .ok (.string key, .string value)
  | .table _ => .error .pairsExpected
  | _ => .error .entryNotTable

/-- The entries that a list of pairs stands for; the last of equal keys holds. -/
def ofPairs (table : Table) : List Value → Except Fault Table
  | [] => .ok table
  | item :: rest => do
    let (key, value) ← pair? item
    match key with
    | .list _ | .table _ => .error .entryNotTable
    | key => ofPairs (table.insert key.text value) rest

/-- The fields of an entry, which is a table or a list of pairs. -/
def fields : Value → Except Fault Table
  | .table entries => .ok entries
  | .list items => ofPairs [] items
  | .string text => if text.isEmpty then .ok [] else .error .pairsExpected
  | _ => .error .entryNotTable

/-- The entry that holds for a tag: its own, or the default one, leaving out those that count as
false. -/
def entryValue (guidance : Guidance) (tag : String) : Value :=
  let usable (key : Key) := (guidance.entries.lookup key).filter Value.isTruthy
  ((usable (.text tag)).or (usable defaultKey)).getD (.table [])

/-- The fields of the entry that holds for a kind. -/
def entry (guidance : Guidance) (kind : Kind) : Except Fault Table :=
  fields (guidance.entryValue kind.tag)

/-- The text of a field, or a text that stands in for a missing one. -/
def fieldText (guidance : Guidance) (fields : Table) (name default : String) :
    Except Fault String :=
  match fields.lookup name with
  | none => .ok default
  | some value => (value.text? guidance.tooDeep).mapError .unshown

/-- The text of a field that counts as true. -/
def usableText (guidance : Guidance) (fields : Table) (name : String) :
    Except Fault (Option String) :=
  match (fields.lookup name).filter Value.isTruthy with
  | none => .ok none
  | some value => ((value.text? guidance.tooDeep).mapError .unshown).map some

/-- The whole number that a value stands for. -/
def wholeNumber : Value → Except Fault Int
  | .integer number => .ok number
  | .boolean value => .ok (if value then 1 else 0)
  | .float .undefined => .error .priorityUnreadable
  | .float number =>
    match number.truncate? with
    | some whole => .ok whole
    | none => .error .priorityInfinite
  | .string text =>
    match Number.readInteger? text.toList with
    | some number => .ok number
    | none => .error .priorityUnreadable
  | _ => .error .priorityNotNumber

/-- The priority in the fields of an entry; one is the most urgent. -/
def priorityOf (fields : Table) : Except Fault Int :=
  match fields.lookup "priority" with
  | none => .ok 4
  | some value => wholeNumber value

/-- What is suggested for a kind. -/
def suggestion (guidance : Guidance) (kind : Kind) : Except Fault String := do
  guidance.fieldText (← guidance.entry kind) "suggested_fix" "Review and fix manually"

/-- Whether violations of a kind can be fixed without review. -/
def isAutoFixable (guidance : Guidance) (kind : Kind) : Except Fault Bool :=
  (guidance.entry kind).map fun fields =>
    ((fields.lookup "auto_fixable").map Value.isTruthy).getD false

def priority (guidance : Guidance) (kind : Kind) : Except Fault Int := do
  priorityOf (← guidance.entry kind)

/-- The text of a priority. -/
def priorityText (priority : Int) : Except Fault String :=
  if Number.isTooLong priority then .error (.unshown .tooManyDigits) else .ok (toString priority)

/-! ### The order of priorities -/

namespace Key

def isComparable : Key → Key → Bool
  | .text _, .text _ => true
  | .other sort _, .other sort' _ => sort == sort'
  | _, _ => false

/-- The order of keys that can be compared; of other ones the order does not matter. -/
def atMost : Key → Key → Bool
  | .text tag, .text tag' => tag ≤ tag'
  | .other _ place, .other _ place' => place ≤ place'
  | .text _, .other _ _ => true
  | .other _ _, .text _ => false

end Key

/-- The priorities of all keys but the default one. -/
def ranked : List (Key × Value) → Except Fault (List (Int × Key))
  | [] => .ok []
  | (key, value) :: rest =>
    if key == defaultKey then ranked rest
    else do
      let .table fields := value | .error .noFields
      let priority ← priorityOf fields
      let others ← ranked rest
      return (priority, key) :: others

/-- Whether keys of equal priority can be compared with each other. -/
def areComparable (ranks : List (Int × Key)) : Bool :=
  ranks.all fun first => ranks.all fun second =>
    first.1 != second.1 || first.2.isComparable second.2

/-- The order of priorities, equal ones by key. -/
def rankAtMost (first second : Int × Key) : Bool :=
  first.1 < second.1 || (first.1 == second.1 && first.2.atMost second.2)

/-- The keys of the registry by priority. -/
def priorityOrder (guidance : Guidance) : Except Fault (List Key) := do
  let ranks ← ranked guidance.entries
  if areComparable ranks then return (ranks.mergeSort rankAtMost).map (·.2)
  else throw .keysNotComparable

end Guidance

end CrateAudit
