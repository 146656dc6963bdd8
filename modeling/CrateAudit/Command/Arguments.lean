/-
This file sorts the words of a command line into options and arguments. Options may
stand anywhere; two dashes alone end them. A long option takes its value after an
equals sign or from the next word, a short one from the rest of its word or the next.
-/

namespace CrateAudit.Command

/-- An option that a command knows: its key, its spellings, and whether it takes a value. -/
structure OptionShape where
  key : String
  names : List String
  takesValue : Bool
  deriving DecidableEq, Repr

/-- The options and arguments that were given, each in order. -/
structure Given where
  flags : List String
  values : List (String × String)
  words : List String
  deriving DecidableEq, Repr

namespace Given

def withFlag (key : String) (given : Given) : Given :=
  { given with flags := key :: given.flags }

def withValue (key value : String) (given : Given) : Given :=
  { given with values := (key, value) :: given.values }

def withWord (word : String) (given : Given) : Given :=
  { given with words := word :: given.words }

def has (given : Given) (key : String) : Bool :=
  given.flags.contains key

/-- Every value of an option. -/
def valuesOf (given : Given) (key : String) : List String :=
  (given.values.filter fun entry => entry.1 == key).map (·.2)

/-- The value of an option that counts: the last one. -/
def value? (given : Given) (key : String) : Option String :=
  (given.valuesOf key).getLast?

end Given

/-- Whether a word is written as an option. A dash alone is not. -/
def isOption (word : String) : Bool :=
  match word.toList with
  | '-' :: _ :: _ => true
  | _ => false

/-- How an option was written. -/
inductive Spelling where
  | flag (key : String)
  | attached (key value : String)
  | separate (key : String)
  deriving DecidableEq, Repr

/-- The part of a word before its first equals sign, and the part after it. -/
def splitValue (word : String) : String × Option String :=
  let characters := word.toList
  match characters.dropWhile (· != '=') with
  | [] => (word, none)
  | _ :: value => (String.ofList (characters.takeWhile (· != '=')), some (String.ofList value))

def shapeNamed? (shapes : List OptionShape) (name : String) : Option OptionShape :=
  shapes.find? fun shape => shape.names.contains name

/-- The spelling of a long option. -/
def longSpelling? (shapes : List OptionShape) (word : String) : Option Spelling :=
  let (name, value) := splitValue word
  (shapeNamed? shapes name).bind fun shape =>
    match shape.takesValue, value with
    | true, some value => some (.attached shape.key value)
    | true, none => some (.separate shape.key)
    | false, none => some (.flag shape.key)
    | false, some _ => none

/-- The spelling of a short option, which is one dash and one letter. -/
def shortSpelling? (shapes : List OptionShape) (word : String) : Option Spelling :=
  (shapeNamed? shapes (String.ofList (word.toList.take 2))).bind fun shape =>
    match shape.takesValue, word.toList.drop 2 with
    | true, [] => some (.separate shape.key)
    | true, value => some (.attached shape.key (String.ofList value))
    | false, [] => some (.flag shape.key)
    | false, _ => none

/-- The spelling of an option that the command knows. -/
def spelling? (shapes : List OptionShape) (word : String) : Option Spelling :=
  if "--".toList.isPrefixOf word.toList then longSpelling? shapes word
  else shortSpelling? shapes word

/-- Sorts the words of a command. There is no result if an option is unknown or lacks its
value. -/
def sortWords (shapes : List OptionShape) : List String → Option Given
  | [] => some ⟨[], [], []⟩
  | word :: rest =>
    if word == "--" then some ⟨[], [], rest⟩
    else if !isOption word then (sortWords shapes rest).map (·.withWord word)
    else
      match spelling? shapes word with
      | none => none
      | some (.flag key) => (sortWords shapes rest).map (·.withFlag key)
      | some (.attached key value) => (sortWords shapes rest).map (·.withValue key value)
      | some (.separate key) =>
        match rest with
        | [] => none
        | value :: later => (sortWords shapes later).map (·.withValue key value)

end CrateAudit.Command
