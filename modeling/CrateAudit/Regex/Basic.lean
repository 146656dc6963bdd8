/-
This file holds search patterns: regular expressions with captures, references back
to them, greedy and reluctant repetitions, and conditions on the text ahead and
behind. Characters are given by code point, so that a pattern may name one that no
text holds.
-/

import CrateAudit.Text.Alphanumeric
import CrateAudit.Text.Blank
import CrateAudit.Text.Digit
import CrateAudit.Text.LetterCase

namespace CrateAudit

/-- The classes of characters that have a name. -/
inductive CharacterClass where
  | digit
  | blank
  | word
  deriving DecidableEq, Repr

/-- One entry of a character set. -/
inductive SetItem where
  | single (code : Nat)
  | range (first last : Nat)
  | named (kind : CharacterClass) (negated : Bool)
  deriving DecidableEq, Repr

/-- What a pattern asks of one character. -/
inductive CharacterTest where
  | anyButFeed
  | any
  | single (code : Nat)
  | oneOf (items : List SetItem) (negated : Bool)
  deriving DecidableEq, Repr

/-- What a pattern asks of a place between characters. The end may stand before a last line
feed; the very end may not. -/
inductive Anchor where
  | start
  | lineStart
  | finish
  | lineFinish
  | veryEnd
  | wordEdge
  | noWordEdge
  deriving DecidableEq, Repr

/-- A search pattern. Groups are numbered from one. -/
inductive Regex where
  | empty
  | never
  | one (test : CharacterTest) (ignoreCase : Bool)
  | anchor (kind : Anchor)
  | sequence (first second : Regex)
  | choice (first second : Regex)
  | group (index : Nat) (body : Regex)
  | reference (index : Nat) (ignoreCase : Bool)
  | repetition (body : Regex) (least : Nat) (most : Option Nat) (greedy : Bool)
  | atomic (body : Regex)
  | ahead (body : Regex) (negated : Bool)
  | behind (width : Nat) (body : Regex) (negated : Bool)
  deriving DecidableEq, Repr

namespace CharacterClass

def holds : CharacterClass → Char → Bool
  | .digit => Text.isDecimalDigit
  | .blank => Text.isBlank
  | .word => Text.isWordCharacter

end CharacterClass

namespace SetItem

/-- Whether the item covers a code point. -/
def covers (code : Nat) : SetItem → Bool
  | .single own => code == own
  | .range first last => first ≤ code && code ≤ last
  | .named kind negated => kind.holds (Char.ofNat code) != negated

/-- Whether the item covers a character up to case. -/
def coversAnyCase (code : Nat) (item : SetItem) : Bool :=
  let small := Text.smallCode code
  match item with
  | .named kind negated => kind.holds (Char.ofNat small) != negated
  | other =>
    (Text.equalSmallCodes small).any fun equal =>
      other.covers equal || (Text.capitalsOf equal).any other.covers

end SetItem

namespace CharacterTest

/-- Whether a character passes the test. -/
def admits (test : CharacterTest) (ignoreCase : Bool) (character : Char) : Bool :=
  match test with
  | .anyButFeed => character != '\n'
  | .any => true
  | .single code =>
    if ignoreCase then SetItem.coversAnyCase character.toNat (.single code)
    else character.toNat == code
  | .oneOf items negated =>
    (items.any fun item =>
      if ignoreCase then item.coversAnyCase character.toNat
      else item.covers character.toNat) != negated

end CharacterTest

namespace Regex

/-- The pattern for one character. -/
def exactly (character : Char) : Regex :=
  .one (.single character.toNat) false

/-- The patterns of a list, one after another. -/
def inOrder : List Regex → Regex
  | [] => .empty
  | [regex] => regex
  | regex :: rest => .sequence regex (inOrder rest)

/-- The pattern for a text. -/
def literal (text : String) : Regex :=
  inOrder (text.toList.map exactly)

/-- One of the listed patterns, the earlier preferred. -/
def firstOf : List Regex → Regex
  | [] => .never
  | [regex] => regex
  | regex :: rest => .choice regex (firstOf rest)

def blank : Regex := .one (.oneOf [.named .blank false] false) false

def wordCharacter : Regex := .one (.oneOf [.named .word false] false) false

/-- Any character but the given ones. -/
def noneOf (characters : List Char) : Regex :=
  .one (.oneOf (characters.map fun character => .single character.toNat) true) false

/-- As many as possible, or none. -/
def many (regex : Regex) : Regex := .repetition regex 0 none true

/-- As many as possible, at least one. -/
def atLeastOne (regex : Regex) : Regex := .repetition regex 1 none true

/-- As few as possible, or none. -/
def few (regex : Regex) : Regex := .repetition regex 0 none false

def perhaps (regex : Regex) : Regex := .repetition regex 0 (some 1) true

end Regex

end CrateAudit
