/-
This file looks for a pattern in a line. A pattern is tried at a place by trying its
parts in order of preference and going back when what follows fails, so of all ways
to match at the first place that has one, the preferred way is found.
-/

import CrateAudit.Regex.Basic

namespace CrateAudit

/-- A place in a line: the text before it in reverse, the text after it, and the spans
captured on the way there, the latest first. -/
structure Place where
  offset : Nat
  before : List Char
  after : List Char
  groups : List (Nat × Nat × Nat)
  deriving DecidableEq, Repr

namespace Place

/-- The place at the start of a line. -/
def start (line : Line) : Place := ⟨0, [], line, []⟩

/-- The place `count` characters back, if there are that many. -/
def back? : Nat → Place → Option Place
  | 0, place => some place
  | count + 1, ⟨offset, before, after, groups⟩ =>
    match before with
    | [] => none
    | character :: rest => back? count ⟨offset - 1, rest, character :: after, groups⟩

/-- Records that the group `index` matched from `first` up to this place. -/
def capture (place : Place) (index first : Nat) : Place :=
  { place with groups := (index, first, place.offset) :: place.groups }

/-- The characters of the line between two offsets. They may lie ahead of the place, where a
condition has looked. -/
def between (place : Place) (first last : Nat) : List Char :=
  ((place.before.reverse ++ place.after).take last).drop first

/-- The text that a group has captured. -/
def captured? (place : Place) (index : Nat) : Option (List Char) :=
  (place.groups.lookup index).map fun span => place.between span.1 span.2

/-- Consumes a text, character by character equal up to case if `ignoreCase`. -/
def consume? (ignoreCase : Bool) : List Char → Place → Option Place
  | [], place => some place
  | character :: rest, ⟨offset, before, after, groups⟩ =>
    match after with
    | [] => none
    | next :: later =>
      let equal := if ignoreCase then
          Text.smallCode next.toNat == Text.smallCode character.toNat
        else next == character
      if equal then consume? ignoreCase rest ⟨offset + 1, next :: before, later, groups⟩ else none

/-- Whether exactly one of the two neighbours is a character of a word. -/
def isWordEdge (place : Place) : Bool :=
  place.before.head?.any Text.isWordCharacter != place.after.head?.any Text.isWordCharacter

end Place

/-- Whether an anchor holds at a place. An empty line has no word edges, and no places that
are not word edges either. -/
def Anchor.holds (place : Place) : Anchor → Bool
  | .start => place.before.isEmpty
  | .lineStart => place.before.isEmpty || place.before.head? == some '\n'
  | .finish => place.after.isEmpty || place.after == ['\n']
  | .lineFinish => place.after.isEmpty || place.after.head? == some '\n'
  | .veryEnd => place.after.isEmpty
  | .wordEdge => place.isWordEdge
  | .noWordEdge => !place.isWordEdge && !(place.before.isEmpty && place.after.isEmpty)

namespace Regex

/-- What remains to be matched after a part of a pattern. -/
abbrev Continuation := Place → Option Place

/-- Tries one alternative, then another. -/
def orTry (first : Option Place) (second : Unit → Option Place) : Option Place :=
  match first with
  | some place => some place
  | none => second ()

/-- Repeats a part of a pattern. The required rounds come first. An optional round is tried
only where the round before it did not start, so a round that consumes nothing is not repeated.
`rounds` bounds the rounds that are left. -/
def repeatFrom (body : Place → Continuation → Option Place) (least : Nat) (most : Option Nat)
    (greedy : Bool) (follow : Continuation) : Nat → Nat → Option Nat → Place → Option Place
  | 0, _, _, _ => none
  | rounds + 1, done, last, place =>
    if done < least then
      body place (repeatFrom body least most greedy follow rounds (done + 1) last)
    else
      let again := fun _ =>
        if most.all (done < ·) && last != some place.offset then
          let start := some place.offset
          body place (repeatFrom body least most greedy follow rounds (done + 1) start)
        else none
      if greedy then orTry (again ()) (fun _ => follow place)
      else orTry (follow place) again

/-- Matches a pattern from a place on and then what follows it. Every optional round of a
repetition starts later than the one before, which bounds their number. -/
def run : Regex → Place → Continuation → Option Place
  | .empty, place, follow => follow place
  | .never, _, _ => none
  | .one test ignoreCase, place, follow =>
    match place.after with
    | [] => none
    | character :: rest =>
      if test.admits ignoreCase character then
        follow ⟨place.offset + 1, character :: place.before, rest, place.groups⟩
      else none
  | .anchor kind, place, follow => if kind.holds place then follow place else none
  | .sequence first second, place, follow => first.run place fun next => second.run next follow
  | .choice first second, place, follow =>
    orTry (first.run place follow) fun _ => second.run place follow
  | .group index body, place, follow =>
    body.run place fun next => follow (next.capture index place.offset)
  | .reference index ignoreCase, place, follow =>
    match place.captured? index with
    | none => none
    | some text => (place.consume? ignoreCase text).bind follow
  | .repetition body least most greedy, place, follow =>
    repeatFrom (fun next rest => body.run next rest) least most greedy follow
      (least + place.after.length + 2) 0 none place
  | .atomic body, place, follow => (body.run place some).bind follow
  | .ahead body negated, place, follow =>
    match body.run place some with
    | some found => if negated then none else follow { place with groups := found.groups }
    | none => if negated then follow place else none
  | .behind width body negated, place, follow =>
    match (place.back? width).bind fun earlier => body.run earlier some with
    | some found => if negated then none else follow { place with groups := found.groups }
    | none => if negated then follow place else none

end Regex

/-- Where a pattern matched: the offset of its start, and the place where it ended. -/
structure Match where
  start : Nat
  final : Place
  deriving DecidableEq, Repr

namespace Match

/-- The offset of the end. -/
def finish (found : Match) : Nat := found.final.offset

/-- The text that matched. -/
def text (found : Match) : List Char :=
  found.final.between found.start found.finish

/-- The text of a group. -/
def group? (found : Match) (index : Nat) : Option (List Char) :=
  found.final.captured? index

end Match

namespace Regex

/-- The match that starts at a place. Where `advancing`, an empty one does not count. -/
def matchAt? (regex : Regex) (advancing : Bool) (place : Place) : Option Match :=
  (regex.run place fun final =>
    if advancing && final.offset == place.offset then none else some final).map (⟨place.offset, ·⟩)

/-- The first match at or after a place with the text `after` ahead of it. -/
def searchFrom (regex : Regex) (advancing : Bool) (offset : Nat) (before : List Char) :
    List Char → Option Match
  | [] => regex.matchAt? advancing ⟨offset, before, [], []⟩
  | character :: rest =>
    match regex.matchAt? advancing ⟨offset, before, character :: rest, []⟩ with
    | some found => some found
    | none => searchFrom regex false (offset + 1) (character :: before) rest

/-- The first match in a line. -/
def search? (regex : Regex) (line : Line) : Option Match :=
  regex.searchFrom false 0 [] line

/-- The match at the start of a line. -/
def matchStart? (regex : Regex) (line : Line) : Option Match :=
  regex.matchAt? false (Place.start line)

/-- Whether the pattern matches somewhere in a line. -/
def occursIn (regex : Regex) (line : Line) : Bool :=
  (regex.search? line).isSome

/-- Whether the pattern matches at the start of a line. -/
def startsLine (regex : Regex) (line : Line) : Bool :=
  (regex.matchStart? line).isSome

/-- The matches from a place on, left to right and without overlap; `bound` bounds their
number. -/
def matchesFrom (regex : Regex) : Nat → Bool → Place → List Match
  | 0, _, _ => []
  | bound + 1, advancing, place =>
    match regex.searchFrom advancing place.offset place.before place.after with
    | none => []
    | some found =>
      found :: matchesFrom regex bound (found.finish == found.start)
        { found.final with groups := [] }

/-- The matches in a line, left to right and without overlap. There are at most two at each
place, an empty one and a longer one. -/
def matchesOf (regex : Regex) (line : Line) : List Match :=
  regex.matchesFrom (2 * line.length + 2) false (Place.start line)

/-- The line without the match at its start. -/
def removeStart (regex : Regex) (line : Line) : Line :=
  match regex.matchStart? line with
  | some found => found.final.after
  | none => line

end Regex

end CrateAudit
