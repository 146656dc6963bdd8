/-
This file reads a search pattern from its written form: literals, escapes, classes,
groups, alternatives, quantifiers, anchors, conditions ahead and behind, references
back, and flags. A brace that opens no quantifier stands for itself. What cannot be
read is refused with its cause; the text of a pattern is consumed from left to right
and every nested part gets a smaller bound.

The language of patterns has four forms more, and this reader refuses them: a character
given by its name in the tables of Unicode (`\N`), a choice by whether a group has taken
part (`(?(1)...)`), and the flags for ASCII classes and for templates (`a` and `t`). They
are why the program does not call the reader itself. It is given a compiler of patterns
as a part of the interpreter that runs it, of which this reader is one.
-/

import CrateAudit.Regex.Basic
import CrateAudit.Text.Name

namespace CrateAudit.Regex

/-- Why a pattern cannot be read. -/
inductive Fault where
  | endsInBackslash
  | unknownEscape
  | incompleteEscape
  | octalTooLarge
  | unterminatedSet
  | badRange
  | nothingToRepeat
  | repeatedTwice
  | boundsReversed
  | repetitionTooLarge
  | unbalancedParenthesis
  | unterminatedGroup
  | unterminatedComment
  | unknownExtension
  | badGroupName
  | groupNamedTwice
  | unknownGroup
  | openGroup
  | groupInSameCondition
  | misplacedFlags
  | badFlags
  | widthNotFixed
  deriving DecidableEq, Repr

/-- The switches that flags set. -/
structure Flags where
  ignoreCase : Bool
  manyLines : Bool
  dotAll : Bool
  spaced : Bool
  deriving DecidableEq, Repr

/-- The least and the greatest number of characters that a pattern consumes. -/
structure Width where
  least : Nat
  most : Option Nat
  deriving DecidableEq, Repr

namespace Width

def zero : Width := ⟨0, some 0⟩

def one : Width := ⟨1, some 1⟩

def add (first second : Width) : Width :=
  ⟨first.least + second.least, do return (← first.most) + (← second.most)⟩

def either (first second : Width) : Width :=
  ⟨min first.least second.least, do return max (← first.most) (← second.most)⟩

/-- The width of repetitions. Nothing repeated without bound is still nothing, and so is what
is not repeated at all. -/
def times (width : Width) (least : Nat) (most : Option Nat) : Width :=
  ⟨width.least * least,
    if width.most == some 0 || most == some 0 then some 0
    else do return (← width.most) * (← most)⟩

end Width

/-- The width of a pattern, given the widths of the groups it refers to. -/
def width (groups : List (Nat × Width)) : Regex → Width
  | .empty | .never | .anchor _ | .ahead _ _ | .behind _ _ _ => .zero
  | .one _ _ => .one
  | .sequence first second => (first.width groups).add (second.width groups)
  | .choice first second => (first.width groups).either (second.width groups)
  | .group _ body | .atomic body => body.width groups
  | .reference index _ => (groups.lookup index).getD .zero
  | .repetition body least most _ => (body.width groups).times least most

/-- What a quantifier after a part of a pattern needs to know about it. -/
inductive PartKind where
  | anchor
  | repeated
  | other
  deriving DecidableEq, Repr

/-- A part of a sequence. -/
structure Part where
  regex : Regex
  kind : PartKind
  deriving DecidableEq, Repr

/-- How far the reading has come. `conditionStart` is the number of the first group inside the
outermost condition on the text behind. -/
structure Progress where
  rest : List Char
  nextGroup : Nat
  openGroups : List Nat
  names : List (String × Nat)
  widths : List (Nat × Width)
  conditionStart : Option Nat
  flags : Flags

abbrev Reading := StateT Progress (Except Fault)

namespace Reading

/-- The next character, not consumed. A backslash at the end of the pattern is refused as soon
as it is seen. -/
def peek : Reading (Option Char) := do
  let progress ← get
  match progress.rest with
  | [] => return none
  | ['\\'] => throw .endsInBackslash
  | character :: _ => return some character

def skip : Reading Unit :=
  modify fun progress => { progress with rest := progress.rest.drop 1 }

/-- Consumes the next character. -/
def next : Reading (Option Char) := do
  let character ← peek
  skip
  return character

/-- Consumes the character after a backslash, whatever it is. -/
def escaped : Reading Char := do
  match (← get).rest with
  | [] => throw .endsInBackslash
  | character :: _ =>
    skip
    return character

/-- Consumes the next character if it is the given one. -/
def accept (character : Char) : Reading Bool := do
  if (← peek) == some character then
    skip
    return true
  else return false

/-- Consumes up to `count` characters of a kind. -/
def takeUpTo (count : Nat) (kind : Char → Bool) : Reading (List Char) := do
  let progress ← get
  let taken := (progress.rest.take count).takeWhile kind
  set { progress with rest := progress.rest.drop taken.length }
  return taken

/-- Consumes the digits that come next. -/
def takeDigits : Reading (List Char) := do
  let progress ← get
  takeUpTo progress.rest.length Char.isDigit

/-- Consumes a name up to and with its last character. -/
def takeName (last : Char) : Reading String := do
  let progress ← get
  let name := progress.rest.takeWhile (· != last)
  if name.isEmpty || name.length == progress.rest.length then throw .badGroupName
  set { progress with rest := progress.rest.drop (name.length + 1) }
  if Text.isName name then return String.ofList name else throw .badGroupName

end Reading

open Reading

def isHexDigit (character : Char) : Bool :=
  character.isDigit || ('a' ≤ character && character ≤ 'f') || ('A' ≤ character && character ≤ 'F')

def isOctalDigit (character : Char) : Bool :=
  '0' ≤ character && character ≤ '7'

def digitOf (character : Char) : Nat :=
  if character.isDigit then character.toNat - 0x30
  else if 'a' ≤ character then character.toNat - 0x61 + 10
  else character.toNat - 0x41 + 10

/-- The number with the given digits. -/
def numberOf (base : Nat) (digits : List Char) : Nat :=
  digits.foldl (fun number digit => number * base + digitOf digit) 0

/-- The code points that have a short escape outside and inside a set. -/
def controlCode? : Char → Option Nat
  | 'a' => some 0x07
  | 'f' => some 0x0C
  | 'n' => some 0x0A
  | 'r' => some 0x0D
  | 't' => some 0x09
  | 'v' => some 0x0B
  | '\\' => some 0x5C
  | _ => none

/-- The classes that have an escape. -/
def classItem? : Char → Option SetItem
  | 'd' => some (.named .digit false)
  | 'D' => some (.named .digit true)
  | 's' => some (.named .blank false)
  | 'S' => some (.named .blank true)
  | 'w' => some (.named .word false)
  | 'W' => some (.named .word true)
  | _ => none

/-- The anchors that have an escape. -/
def anchorEscape? : Char → Option Anchor
  | 'A' => some .start
  | 'b' => some .wordEdge
  | 'B' => some .noWordEdge
  | 'Z' => some .veryEnd
  | _ => none

/-- A code given by exactly `count` hexadecimal digits. -/
def hexEscape (count : Nat) : Reading Nat := do
  let digits ← takeUpTo count isHexDigit
  if digits.length != count then throw .incompleteEscape
  let code := numberOf 16 digits
  if 0x10FFFF < code then throw .unknownEscape
  return code

/-- An escape for one code point that means the same inside and outside a set. -/
def codeEscape (character : Char) : Reading Nat := do
  match character with
  | 'x' => hexEscape 2
  | 'u' => hexEscape 4
  | 'U' => hexEscape 8
  | other =>
    match controlCode? other with
    | some code => return code
    | none => if other.isAlpha || other.isDigit then throw .unknownEscape else return other.toNat

/-- The entry of a set that an escape stands for. -/
def setEscape (character : Char) : Reading SetItem := do
  match classItem? character with
  | some item => return item
  | none =>
    if character == 'b' then return .single 0x08
    else if isOctalDigit character then
      let more ← takeUpTo 2 isOctalDigit
      let code := numberOf 8 (character :: more)
      if 0o377 < code then throw .octalTooLarge
      return .single code
    else return .single (← codeEscape character)

/-- One end of a range or a whole entry. -/
def setEntry (character : Char) : Reading SetItem := do
  if character == '\\' then setEscape (← escaped)
  else return .single character.toNat

/-- The entries of a set up to its closing bracket, which is an ordinary character in first
place. -/
def setItems : Nat → List SetItem → Reading (List SetItem)
  | 0, _ => throw .unterminatedSet
  | bound + 1, read => do
    match ← next with
    | none => throw .unterminatedSet
    | some character =>
      if character == ']' && !read.isEmpty then return read.reverse
      let first ← setEntry character
      if ← accept '-' then
        match ← next with
        | none => throw .unterminatedSet
        | some ']' => return (.single 0x2D :: first :: read).reverse
        | some other =>
          match first, ← setEntry other with
          | .single low, .single high =>
            if high < low then throw .badRange
            setItems bound (.range low high :: read)
          | _, _ => throw .badRange
      else setItems bound (first :: read)

/-- A group that is closed and may be referred to. -/
def checkReference (index : Nat) : Reading Unit := do
  let progress ← get
  if progress.openGroups.contains index then throw .openGroup
  match progress.conditionStart with
  | none => return ()
  | some first => if first ≤ index then throw .groupInSameCondition

/-- The part of a pattern that an escape stands for. -/
def escapePart (flags : Flags) (character : Char) : Reading Part := do
  let single (code : Nat) : Part := ⟨.one (.single code) flags.ignoreCase, .other⟩
  match anchorEscape? character, classItem? character with
  | some kind, _ => return ⟨.anchor kind, .anchor⟩
  | none, some item => return ⟨.one (.oneOf [item] false) flags.ignoreCase, .other⟩
  | none, none =>
    if character == '0' then
      let more ← takeUpTo 2 isOctalDigit
      return single (numberOf 8 more)
    else if character.isDigit then
      let second ← takeUpTo 1 Char.isDigit
      let third ← if isOctalDigit character && second.any isOctalDigit then takeUpTo 1 isOctalDigit
        else pure []
      if third.isEmpty then
        let index := numberOf 10 (character :: second)
        if (← get).nextGroup ≤ index then throw .unknownGroup
        checkReference index
        return ⟨.reference index flags.ignoreCase, .other⟩
      else
        let code := numberOf 8 (character :: second ++ third)
        if 0o377 < code then throw .octalTooLarge
        return single code
    else return single (← codeEscape character)

/-- The greatest bound of a quantifier, not allowed itself. -/
def repetitionLimit : Nat := 4294967295

/-- The bounds of a quantifier in braces after the opening one; `none` if it is no quantifier,
with nothing consumed. -/
def braceBounds : Reading (Option (Nat × Option Nat)) := do
  let start ← get
  if start.rest.head? == some '}' then return none
  let low ← takeDigits
  let comma ← accept ','
  let high ← if comma then takeDigits else pure low
  if !(← accept '}') then
    set start
    return none
  let least := numberOf 10 low
  let most := if high.isEmpty then none else some (numberOf 10 high)
  if repetitionLimit ≤ least || most.any (repetitionLimit ≤ ·) then throw .repetitionTooLarge
  if most.any (· < least) then throw .boundsReversed
  return some (least, most)

/-- Applies a quantifier to the last part read. -/
def quantify (least : Nat) (most : Option Nat) : List Part → Reading (List Part)
  | [] => throw .nothingToRepeat
  | part :: earlier => do
    match part.kind with
    | .anchor => throw .nothingToRepeat
    | .repeated => throw .repeatedTwice
    | .other =>
      if ← accept '?' then
        return ⟨.repetition part.regex least most false, .repeated⟩ :: earlier
      else if ← accept '+' then
        return ⟨.atomic (.repetition (.atomic part.regex) least most true), .repeated⟩ :: earlier
      else return ⟨.repetition part.regex least most true, .repeated⟩ :: earlier

/-- Whether a letter is a flag. The one for Unicode classes cannot be taken back. -/
def isFlag (value : Bool) (letter : Char) : Bool :=
  ['i', 'm', 's', 'x'].contains letter || (value && letter == 'u')

/-- Sets the switch that a flag stands for. The flag for Unicode classes changes nothing. -/
def switch (value : Bool) (flags : Flags) : Char → Flags
  | 'i' => { flags with ignoreCase := value }
  | 'm' => { flags with manyLines := value }
  | 's' => { flags with dotAll := value }
  | 'x' => { flags with spaced := value }
  | _ => flags

/-- Reads flags up to a character that ends them, which is the second part of the answer. -/
def readFlags (value : Bool) : Nat → Char → Reading (List Char × Char)
  | 0, _ => throw .badFlags
  | bound + 1, letter => do
    if !isFlag value letter then throw .badFlags
    match ← next with
    | none => throw .badFlags
    | some after =>
      if after == ':' || (value && (after == ')' || after == '-')) then return ([letter], after)
      let (others, last) ← readFlags value bound after
      return (letter :: others, last)

/-- The flags of a group of its own, which may not be set and taken back at once. -/
def groupFlags (flags : Flags) (set : List Char) (cleared : List Char) : Reading Flags := do
  if set.any cleared.contains then throw .badFlags
  return cleared.foldl (switch false) (set.foldl (switch true) flags)

/-- Joins the parts of a sequence, given last to first. -/
def joinParts (parts : List Part) : Regex :=
  inOrder (parts.reverse.map (·.regex))

/-- What stands between the parentheses of a comment is skipped. -/
def skipComment : Nat → Reading Unit
  | 0 => throw .unterminatedComment
  | bound + 1 => do
    match ← next with
    | none => throw .unterminatedComment
    | some ')' => return ()
    | some '\\' => do
      skip
      skipComment bound
    | some _ => skipComment bound

/-- In a spaced pattern a number sign hides the rest of its line. -/
def skipRemark : Nat → Reading Unit
  | 0 => return ()
  | bound + 1 => do
    match ← next with
    | none => return ()
    | some '\n' => return ()
    | some '\\' => do
      skip
      skipRemark bound
    | some _ => skipRemark bound

/-- The blanks that a spaced pattern may hold between its parts. -/
def isSpace (character : Char) : Bool :=
  [' ', '\t', '\n', '\r', '\x0b', '\x0c'].contains character

/-- Opens a new group. -/
def openGroup (name : Option String) : Reading Nat := do
  let progress ← get
  let index := progress.nextGroup
  match name with
  | none => pure ()
  | some name => if (progress.names.lookup name).isSome then throw .groupNamedTwice
  set { progress with
    nextGroup := index + 1
    openGroups := index :: progress.openGroups
    names := match name with
      | none => progress.names
      | some name => (name, index) :: progress.names }
  return index

/-- Closes a group and remembers its width. -/
def closeGroup (index : Nat) (body : Regex) : Reading Unit :=
  modify fun progress => { progress with
    openGroups := progress.openGroups.erase index
    widths := (index, body.width progress.widths) :: progress.widths }

/-- The closing parenthesis of a group. -/
def closing : Reading Unit := do
  if !(← accept ')') then throw .unterminatedGroup

/-- A condition on the text behind, whose width has to be fixed and below the limit. -/
def behindPart (body : Regex) (negated : Bool) : Reading Part := do
  let width := body.width (← get).widths
  if width.most != some width.least || repetitionLimit ≤ width.least then throw .widthNotFixed
  return ⟨.behind width.least body negated, .other⟩

mutual

/-- Alternatives up to the end of the group or of the pattern. `outermost` holds for those that
are in no group. -/
def alternatives : Nat → Flags → Bool → Reading Regex
  | 0, _, _ => throw .unterminatedGroup
  | bound + 1, flags, outermost => do
    let parts ← sequenceParts bound flags outermost []
    let first := joinParts parts
    -- Flags at the very start hold for every alternative.
    let whole := (← get).flags
    let flags := if outermost then whole else flags
    if ← accept '|' then
      return .choice first (← moreAlternatives bound flags)
    else return first

/-- The alternatives after the first. -/
def moreAlternatives : Nat → Flags → Reading Regex
  | 0, _ => throw .unterminatedGroup
  | bound + 1, flags => do
    let first := joinParts (← sequenceParts bound flags false [])
    if ← accept '|' then
      return .choice first (← moreAlternatives bound flags)
    else return first

/-- The parts of a sequence, last to first, after those already read. `mayFlag` holds as long as
flags for the whole pattern may stand here. -/
def sequenceParts : Nat → Flags → Bool → List Part → Reading (List Part)
  | 0, _, _, _ => throw .unterminatedGroup
  | bound + 1, flags, mayFlag, parts => do
    let add (part : Part) : Reading (List Part) :=
      sequenceParts bound flags mayFlag (part :: parts)
    match ← peek with
    | none => return parts
    | some '|' => return parts
    | some ')' => return parts
    | some character =>
      skip
      if flags.spaced && isSpace character then return ← sequenceParts bound flags mayFlag parts
      if flags.spaced && character == '#' then
        skipRemark ((← get).rest.length + 1)
        return ← sequenceParts bound flags mayFlag parts
      match character with
      | '\\' => add (← escapePart flags (← escaped))
      | '[' => do
        let negated ← accept '^'
        let items ← setItems ((← get).rest.length + 1) []
        add ⟨.one (.oneOf items negated) flags.ignoreCase, .other⟩
      | '?' => sequenceParts bound flags mayFlag (← quantify 0 (some 1) parts)
      | '*' => sequenceParts bound flags mayFlag (← quantify 0 none parts)
      | '+' => sequenceParts bound flags mayFlag (← quantify 1 none parts)
      | '\x7b' =>
        match ← braceBounds with
        | none => add ⟨.one (.single 0x7B) flags.ignoreCase, .other⟩
        | some (least, most) => sequenceParts bound flags mayFlag (← quantify least most parts)
      | '.' =>
        add ⟨.one (if flags.dotAll then .any else .anyButFeed) false, .other⟩
      | '^' => add ⟨.anchor (if flags.manyLines then .lineStart else .start), .anchor⟩
      | '$' => add ⟨.anchor (if flags.manyLines then .lineFinish else .finish), .anchor⟩
      | '(' =>
        if ← accept '?' then extension bound flags mayFlag parts
        else captured bound flags mayFlag parts none
      | other => add ⟨.one (.single other.toNat) flags.ignoreCase, .other⟩

/-- A capturing group after its opening parenthesis, and the parts after it. -/
def captured : Nat → Flags → Bool → List Part → Option String → Reading (List Part)
  | 0, _, _, _, _ => throw .unterminatedGroup
  | bound + 1, flags, mayFlag, parts, name => do
    let index ← openGroup name
    let body ← alternatives bound flags false
    closing
    closeGroup index body
    sequenceParts bound flags mayFlag (⟨.group index body, .other⟩ :: parts)

/-- What follows an opening parenthesis and a question mark, and the parts after it. -/
def extension : Nat → Flags → Bool → List Part → Reading (List Part)
  | 0, _, _, _ => throw .unterminatedGroup
  | bound + 1, flags, mayFlag, parts => do
    let add (part : Part) : Reading (List Part) :=
      sequenceParts bound flags mayFlag (part :: parts)
    match ← next with
    | none => throw .unterminatedGroup
    | some 'P' =>
      if ← accept '<' then captured bound flags mayFlag parts (some (← takeName '>'))
      else if ← accept '=' then do
        let name ← takeName ')'
        match (← get).names.lookup name with
        | none => throw .unknownGroup
        | some index =>
          checkReference index
          add ⟨.reference index flags.ignoreCase, .other⟩
      else throw .unknownExtension
    | some ':' => do
      let body ← alternatives bound flags false
      closing
      add ⟨body, .other⟩
    | some '>' => do
      let body ← alternatives bound flags false
      closing
      add ⟨.atomic body, .other⟩
    | some '#' => do
      skipComment ((← get).rest.length + 1)
      sequenceParts bound flags mayFlag parts
    | some '=' => do
      let body ← alternatives bound flags false
      closing
      add ⟨.ahead body false, .other⟩
    | some '!' => do
      let body ← alternatives bound flags false
      closing
      add ⟨.ahead body true, .other⟩
    | some '<' => do
      let negated ← match ← next with
        | some '=' => pure false
        | some '!' => pure true
        | _ => throw .unknownExtension
      let outer := (← get).conditionStart
      modify fun progress =>
        { progress with conditionStart := some (outer.getD progress.nextGroup) }
      let body ← alternatives bound flags false
      modify fun progress => { progress with conditionStart := outer }
      closing
      add (← behindPart body negated)
    | some character => do
      let length := (← get).rest.length + 1
      let (letters, after) ← if character == '-' then pure ([], '-')
        else readFlags true length character
      if after == ')' then
        if !mayFlag || !parts.isEmpty then throw .misplacedFlags
        let whole := letters.foldl (switch true) flags
        modify fun progress => { progress with flags := whole }
        sequenceParts bound whole mayFlag parts
      else
        let cleared ← if after == '-' then do
            match ← next with
            | none => throw .badFlags
            | some first => pure (← readFlags false length first).1
          else pure []
        let body ← alternatives bound (← groupFlags flags letters cleared) false
        closing
        add ⟨body, .other⟩

end

/-- Reads a pattern. Each nested call consumes a character or ends a run of alternatives, so
four times the length is bound enough. -/
def read (pattern : String) : Except Fault Regex := do
  let text := pattern.toList
  let flags : Flags := ⟨false, false, false, false⟩
  let start : Progress := ⟨text, 1, [], [], [], none, flags⟩
  let (regex, progress) ← (alternatives (4 * text.length + 4) flags true).run start
  match progress.rest with
  | [] => return regex
  | _ => throw .unbalancedParenthesis

end CrateAudit.Regex
