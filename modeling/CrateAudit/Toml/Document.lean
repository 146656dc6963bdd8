/-
This file reads a TOML document into a table. A table may be declared once; a table
that a dotted key has opened may not be declared by a header, and an array or a table
written inline is complete as it stands. A decimal number with too many digits is no
fault of the document, but it ends the reading, and so does nesting that is too deep.
-/

import CrateAudit.Text.Encoding
import CrateAudit.Toml.Number

namespace CrateAudit.Toml

/-! ### Nested tables -/

/-- Changes the table at the end of a path, creating tables on the way. Where `throughLists`, the
path goes through the last table of an array of tables. -/
def changeAt (throughLists : Bool) (change : Table → Except Fault Table) :
    List String → Table → Except Fault Table
  | [], table => change table
  | name :: rest, table =>
    match table.lookup name with
    | none => (changeAt throughLists change rest []).map fun inner =>
        table.insert name (.table inner)
    | some (.table inner) =>
      (changeAt throughLists change rest inner).map fun inner => table.insert name (.table inner)
    | some (.list items) =>
      match throughLists, items.getLast? with
      | true, some (.table inner) =>
        (changeAt throughLists change rest inner).map fun inner =>
          table.insert name (.list (items.dropLast ++ [.table inner]))
      | _, _ => .error .valueOverwritten
    | some _ => .error .valueOverwritten

/-- Adds an entry to the table at the end of a path. -/
def addEntry (throughLists : Bool) (path : List String) (name : String) (value : Value) :
    Table → Except Fault Table :=
  changeAt throughLists
    (fun table =>
      if (table.lookup name).isSome then .error .valueOverwritten
      else .ok (table.insert name value))
    path

/-- Adds an empty table to the array of tables at a path. -/
def appendTable (path : List String) (name : String) : Table → Except Fault Table :=
  changeAt true
    (fun table =>
      match table.lookup name with
      | none => .ok (table.insert name (.list [.table []]))
      | some (.list items) => .ok (table.insert name (.list (items ++ [.table []])))
      | some _ => .error .valueOverwritten)
    path

/-- Whether a value is complete as it stands. -/
def isContainer : Value → Bool
  | .table _ | .list _ => true
  | _ => false

/-- Whether a path is a frozen one or goes on from one. -/
def isFrozen (frozen : List (List String)) (path : List String) : Bool :=
  frozen.any (·.isPrefixOf path)

/-! ### Values -/

/-- The number at the start of a text. Of the whole numbers only the decimal ones, which no zero
starts, may have too many digits. -/
def shortNumber (text : List Char) (part : Value × List Char) :
    Except Fault (Value × List Char) :=
  match part.1 with
  | .integer number =>
    if text.head? != some '0' && Number.isTooLong number then
      .error (.tooManyDigits (Nat.toDigits 10 number.natAbs).length)
    else .ok part
  | _ => .ok part

/-- Skips blanks, line feeds and comments. `bound` is at least the length of the text. -/
def skipFiller : Nat → List Char → Except Fault (List Char)
  | 0, text => .ok text
  | bound + 1, text => do
    match text.dropWhile isSpaceOrFeed with
    | '#' :: rest => skipFiller bound (← skipComment ('#' :: rest))
    | after => return after

def equals (text : List Char) : Except Fault (List Char) :=
  match text with
  | '=' :: rest => .ok (skipSpace rest)
  | _ => .error .equalsExpected

mutual

/-- A value. `bound` bounds the nesting and the members of what is nested. -/
def value : Nat → List Char → Except Fault (Value × List Char)
  | 0, _ => .error .valueExpected
  | bound + 1, text =>
    match text with
    | '[' :: rest => do
      let inner ← skipFiller (rest.length + 1) rest
      (items bound inner).map fun part => (.list part.1, part.2)
    | '\x7b' :: rest =>
      match skipSpace rest with
      | '\x7d' :: after => .ok (.table [], after)
      | inner => (entries bound [] [] inner).map fun part => (.table part.1, part.2)
    | '"' :: _ | '\'' :: _ => (string text).map fun part => (.string (String.ofList part.1), part.2)
    | 't' :: 'r' :: 'u' :: 'e' :: rest => .ok (.boolean true, rest)
    | 'f' :: 'a' :: 'l' :: 's' :: 'e' :: rest => .ok (.boolean false, rest)
    | _ =>
      match moment? text with
      | some (true, moment, rest) => .ok (.moment moment, rest)
      | some (false, _, _) => .error .badDate
      | none =>
        match (number? text).or (namedNumber? text) with
        | some part => shortNumber text part
        | none => .error .valueExpected

/-- The items of an array up to its closing bracket. -/
def items : Nat → List Char → Except Fault (List Value × List Char)
  | 0, _ => .error .bracketExpected
  | bound + 1, text =>
    match text with
    | ']' :: rest => .ok ([], rest)
    | _ => do
      let (first, after) ← value bound text
      match ← skipFiller (after.length + 1) after with
      | ']' :: rest => return ([first], rest)
      | ',' :: rest =>
        let inner ← skipFiller (rest.length + 1) rest
        let (others, after) ← items bound inner
        return (first :: others, after)
      | _ => throw .bracketExpected

/-- The entries of an inline table up to its closing brace, after those in `table`. -/
def entries :
    Nat → List (List String) → Table → List Char → Except Fault (Table × List Char)
  | 0, _, _, _ => .error .bracketExpected
  | bound + 1, frozen, table, text => do
    let (path, after) ← key (text.length + 1) text
    let (held, after) ← value bound (← equals after)
    if isFrozen frozen path then throw .frozen
    let table ← addEntry false path.dropLast (path.getLast?.getD "") held table
    match skipSpace after with
    | '\x7d' :: rest => return (table, rest)
    | ',' :: rest =>
      entries bound (if isContainer held then path :: frozen else frozen) table (skipSpace rest)
    | _ => throw .bracketExpected

end

/-! ### The document -/

/-- A document as far as it has been read: its table, the header in force, the paths that are
complete, those that may not be declared again, and those that join them at the next header. -/
structure Draft where
  table : Table
  header : List String
  frozen : List (List String)
  declared : List (List String)
  pending : List (List String)

namespace Draft

def start : Draft := ⟨[], [], [], [], []⟩

/-- A header begins: what dotted keys have opened counts as declared from now on. -/
def settle (draft : Draft) : Draft :=
  { draft with declared := draft.pending ++ draft.declared, pending := [] }

/-- Declares a table. -/
def declareTable (draft : Draft) (path : List String) : Except Fault Draft := do
  if draft.declared.contains path || isFrozen draft.frozen path then throw .declaredTwice
  let table ← changeAt true (fun table => .ok table) path draft.table
  return { draft with table, header := path, declared := path :: draft.declared }

/-- Declares the next table of an array. What was declared in the one before it is free again. -/
def declareArrayTable (draft : Draft) (path : List String) : Except Fault Draft := do
  if isFrozen draft.frozen path then throw .frozen
  let outside (other : List String) : Bool := !path.isPrefixOf other
  let table ← appendTable path.dropLast (path.getLast?.getD "") draft.table
  return { draft with
    table
    header := path
    frozen := draft.frozen.filter outside
    declared := path :: draft.declared.filter outside }

/-- The tables that a dotted key goes through. -/
def openedBy (draft : Draft) (path : List String) : List (List String) :=
  (List.range path.length).tail.map fun count => draft.header ++ path.take count

/-- Adds an entry under the header in force. -/
def addEntry (draft : Draft) (path : List String) (held : Value) : Except Fault Draft := do
  let opened := draft.openedBy path
  if opened.any draft.declared.contains then throw .declaredTwice
  let parent := draft.header ++ path.dropLast
  if isFrozen draft.frozen parent then throw .frozen
  let table ← Toml.addEntry true parent (path.getLast?.getD "") held draft.table
  return { draft with
    table
    pending := opened ++ draft.pending
    frozen := if isContainer held then (draft.header ++ path) :: draft.frozen else draft.frozen }

end Draft

/-- One statement: a header or an entry. -/
def statement (draft : Draft) (text : List Char) : Except Fault (Draft × List Char) :=
  match text with
  | '[' :: '[' :: rest => do
    let (path, after) ← key (rest.length + 1) (skipSpace rest)
    let draft ← draft.settle.declareArrayTable path
    match after with
    | ']' :: ']' :: rest => return (draft, rest)
    | _ => throw .bracketExpected
  | '[' :: rest => do
    let (path, after) ← key (rest.length + 1) (skipSpace rest)
    let draft ← draft.settle.declareTable path
    match after with
    | ']' :: rest => return (draft, rest)
    | _ => throw .bracketExpected
  | '#' :: _ => .ok (draft, text)
  | character :: _ =>
    if isBareKey character || character == '"' || character == '\'' then do
      let (path, after) ← key (text.length + 1) text
      let (held, after) ← value (text.length + 1) (← equals after)
      return (← draft.addEntry path held, after)
    else .error .statementExpected
  | [] => .ok (draft, [])

/-- The statements of a text, one on a line. `bound` is at least the number of lines. -/
def statements : Nat → Draft → List Char → Except Fault Draft
  | 0, draft, _ => .ok draft
  | bound + 1, draft, text => do
    match skipSpace text with
    | [] => return draft
    | '\n' :: rest => statements bound draft rest
    | start =>
      let (draft, after) ← statement draft start
      match ← skipComment (skipSpace after) with
      | [] => return draft
      | '\n' :: rest => statements bound draft rest
      | _ => throw .endOfLineExpected

/-- The text with each line feed pair turned into a line feed. -/
def unifyFeeds : List Char → List Char
  | [] => []
  | '\r' :: '\n' :: rest => '\n' :: unifyFeeds rest
  | character :: rest => character :: unifyFeeds rest

/-- The table of a document. -/
def read (text : List Char) : Except Fault Table :=
  let text := unifyFeeds text
  (statements (text.length + 1) .start text).map (·.table)

/-- What keeps the program from reading bytes to their end, be they a document or not. -/
inductive Obstacle where
  | notUtf8
  | nestedTooDeep
  | tooManyDigits (count : Nat)
  deriving DecidableEq, Repr

/-- Why the bytes of a file give no table. -/
inductive FileFault where
  | obstacle (cause : Obstacle)
  | malformed (fault : Fault)
  deriving DecidableEq, Repr

def FileFault.ofFault : Fault → FileFault
  | .tooManyDigits count => .obstacle (.tooManyDigits count)
  | fault => .malformed fault

/-- The table of a document in UTF-8. -/
def readBytes (bytes : List UInt8) (tooDeep : List Char → Bool := fun _ => false) :
    Except FileFault Table :=
  match Text.decodeStrict? bytes with
  | none => .error (.obstacle .notUtf8)
  | some text =>
    if tooDeep text then .error (.obstacle .nestedTooDeep)
    else (read text).mapError .ofFault

end CrateAudit.Toml
