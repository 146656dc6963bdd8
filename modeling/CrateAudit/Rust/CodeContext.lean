/-
This file describes the code around a line: the nearest function above it, the trait
it implements, the imports of the file and the way the file handles errors.
-/

import CrateAudit.Rule
import CrateAudit.Rust.FunctionSpan

namespace CrateAudit.Rust

/-- The main way in which a file handles errors. -/
inductive ErrorStyle where
  | anyhowResult
  | customResult
  | stdResult
  | optionBased
  | panic
  | unknown
  deriving DecidableEq, Repr

namespace ErrorStyle

def all : List ErrorStyle :=
  [.anyhowResult, .customResult, .stdResult, .optionBased, .panic, .unknown]

def label : ErrorStyle → String
  | .anyhowResult => "AnyhowResult"
  | .customResult => "CustomResult"
  | .stdResult => "StdResult"
  | .optionBased => "OptionBased"
  | .panic => "Panic"
  | .unknown => "Unknown"

def ofLabel? (label : String) : Option ErrorStyle :=
  all.find? fun style => style.label == label

/-- The style of a file with these imports and this text. The first sign found decides. -/
def detect (imports : List Line) (content : List Char) : ErrorStyle :=
  let mentions (sign : String) := Text.includes sign.toList content
  if imports.any (Text.includes "anyhow".toList) || mentions "anyhow::Result" then .anyhowResult
  else if mentions "Result<" then
    if mentions "std::result::Result" then .stdResult else .customResult
  else if mentions "Option<" then .optionBased
  else if mentions "panic!" || mentions ".unwrap()" then .panic
  else .unknown

end ErrorStyle

/-- The code around a line. -/
structure CodeContext where
  functionName : Option String
  functionSignature : Option String
  returnType : Option String
  isAsync : Bool
  isGeneric : Bool
  returnsResult : Bool
  returnsOption : Bool
  traitImpl : Option String
  surroundingCode : List String
  imports : List String
  errorStyle : ErrorStyle
  deriving DecidableEq, Repr

namespace CodeContext

/-- How many lines above and below belong to the surroundings. -/
def radius : Nat := 10

/-- The index of the line with a number, or of the nearest line that exists. -/
def targetIndex (lines : List Line) (number : Int) : Nat :=
  min (max number 1).toNat (max lines.length 1) - 1

/-- The lines at most `radius` away from a line. -/
def surroundings (lines : List Line) (target : Nat) : List Line :=
  (lines.take (target + radius + 1)).drop (target - radius)

/-- The imports of a file, without their outer blanks. -/
def importsOf (lines : List Line) : List Line :=
  (lines.map Text.trim).filter fun line => "use ".toList.isPrefixOf line

/-- The lines up to and with the one at an index, nearest first, with their indices. -/
def upward (lines : List Line) (index : Nat) : List (Line × Nat) :=
  ((lines.take (index + 1)).zipIdx).reverse

/-- The signature of the nearest function that starts at or above a line. -/
def signatureAbove? (lines : List Line) (target : Nat) : Option Line :=
  ((upward lines target).find? fun entry => Rule.functionDefinition.regex.occursIn entry.1).map
    fun entry => (signatureAt lines entry.2).text

/-- The nearest line at or above a line that speaks of an implementation for something. -/
def traitAbove? (lines : List Line) (target : Nat) : Option Line :=
  ((upward lines target).find? fun entry =>
    Text.includes "impl".toList entry.1 && Text.includes "for".toList entry.1).map
      fun entry => Text.trim entry.1

/-- The context of the line with a number, in a file with these lines and this text. -/
def ofLine (number : Int) (lines : List Line) (content : List Char) : CodeContext :=
  let target := targetIndex lines number
  let imports := importsOf lines
  let signature := signatureAbove? lines target
  let mentions (sign : String) := signature.any (Text.includes sign.toList)
  { functionName := (signature.bind functionName?).map String.ofList
    functionSignature := signature.map String.ofList
    returnType := (signature.bind returnType?).map String.ofList
    isAsync := mentions "async"
    isGeneric := mentions "<"
    returnsResult := signature.any Rust.returnsResult
    returnsOption := signature.any Rust.returnsOption
    traitImpl := (traitAbove? lines target).map String.ofList
    surroundingCode := (surroundings lines target).map String.ofList
    imports := imports.map String.ofList
    errorStyle := .detect imports content }

end CodeContext

end CrateAudit.Rust
