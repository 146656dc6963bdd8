/-
This file joins the lines of a function's signature into one text and reads the name
and the return type from it. Only the written form counts: an alias of a result type
is not recognised as one.
-/

import CrateAudit.Rust.Lexing

namespace CrateAudit.Rust

/-- The joined lines of a signature, and the index of the last of them: the line that opens the
body. Where the lines end first it is the last line; it is -1 when there are no lines. -/
structure Signature where
  text : Line
  braceIndex : Int
  deriving DecidableEq, Repr

/-- Whether a signature ends at this line: a body opens, or a declaration ends. -/
def endsSignature (line : Line) : Bool :=
  let code := codeOnly line
  code.contains '\x7b' || (Text.trimEnd code).getLast? = some ';'

/-- The lines up to and with the first one at which a signature ends. -/
def signatureLines : List Line → List Line
  | [] => []
  | line :: rest => if endsSignature line then [line] else line :: signatureLines rest

/-- The lines without their outer blanks, the empty ones left out, joined by one blank. -/
def joinTrimmed (lines : List Line) : Line :=
  [' '].intercalate ((lines.map Text.trim).filter (!·.isEmpty))

/-- The signature that starts at a line. -/
def signatureAt (lines : List Line) (start : Nat) : Signature :=
  let own := signatureLines (lines.drop start)
  ⟨joinTrimmed own,
    if own.isEmpty then (lines.length : Int) - 1 else (start + own.length : Int) - 1⟩

theorem signatureLines_ne_nil {lines : List Line} (nonempty : lines ≠ []) :
    signatureLines lines ≠ [] := by
  cases lines with
  | nil => contradiction
  | cons line rest =>
    unfold signatureLines
    split <;> simp

theorem signatureLines_isPrefix (lines : List Line) : signatureLines lines <+: lines := by
  induction lines with
  | nil => exact List.nil_prefix
  | cons line rest inductionHypothesis =>
    unfold signatureLines
    split
    · exact ⟨rest, rfl⟩
    · exact List.cons_prefix_cons.mpr ⟨rfl, inductionHypothesis⟩

/-- The signature of a line that exists ends at that line or later, and before the lines end. -/
theorem signatureAt_braceIndex {lines : List Line} {start : Nat} (exists_ : start < lines.length) :
    (start : Int) ≤ (signatureAt lines start).braceIndex ∧
      (signatureAt lines start).braceIndex < lines.length := by
  have nonempty : signatureLines (lines.drop start) ≠ [] :=
    signatureLines_ne_nil (by simp [List.drop_eq_nil_iff]; omega)
  have short := (signatureLines_isPrefix (lines.drop start)).length_le
  have long := List.length_pos_iff.mpr nonempty
  rw [List.length_drop] at short
  have notEmpty : (signatureLines (lines.drop start)).isEmpty = false := by
    simpa using nonempty
  simp only [signatureAt, notEmpty, Bool.false_eq_true, if_false]
  omega

/-- The line at which a signature ends is the last of its lines. -/
theorem braceIndex_of_endsSignature {lines : List Line} {start : Nat}
    (inside : start < lines.length) (ends : endsSignature lines[start] = true) :
    (signatureAt lines start).braceIndex = start := by
  simp only [signatureAt, List.drop_eq_getElem_cons inside, signatureLines, if_pos ends,
    List.isEmpty_cons, Bool.false_eq_true, if_false, List.length_singleton]
  omega

/-- A signature that goes on ends where it ends from the next line on. -/
theorem braceIndex_succ {lines : List Line} {start : Nat} (inside : start < lines.length)
    (goesOn : ¬ endsSignature lines[start] = true) :
    (signatureAt lines start).braceIndex = (signatureAt lines (start + 1)).braceIndex := by
  simp only [signatureAt, List.drop_eq_getElem_cons inside, signatureLines, if_neg goesOn]
  by_cases last : start + 1 < lines.length
  · have more : (signatureLines (lines.drop (start + 1))).isEmpty = false := by
      rw [List.isEmpty_eq_false_iff]
      exact signatureLines_ne_nil (by simpa using last)
    simp only [more, List.isEmpty_cons, Bool.false_eq_true, if_false, List.length_cons]
    omega
  · have none : lines.drop (start + 1) = [] := List.drop_eq_nil_iff.mpr (by omega)
    simp [none, signatureLines]
    omega

/-! ### What a signature says -/

/-- The texts that mark a result type. -/
def resultMarkers : List Line :=
  ["-> Result", "-> anyhow::Result", "-> std::result::Result", "-> io::Result"].map String.toList

/-- The text that marks an optional type. -/
def optionMarker : Line := "-> Option".toList

/-- The function's name: what follows the first `fn` and a blank, up to a parenthesis or an
angle bracket. -/
def functionName? (signature : Line) : Option Line :=
  match Text.after? "fn ".toList signature with
  | none => none
  | some rest =>
    let name := Text.trim (rest.takeWhile fun character => character ≠ '(' ∧ character ≠ '<')
    if name.isEmpty then none else some name

def returnsResult (signature : Line) : Bool :=
  resultMarkers.any (Text.includes · signature)

def returnsOption (signature : Line) : Bool :=
  Text.includes optionMarker signature

/-- The return type: what follows the first arrow, up to the body, a `where` or a semicolon. -/
def returnType? (signature : Line) : Option Line :=
  match Text.after? "->".toList signature with
  | none => none
  | some rest =>
    let result := Text.trim
      (Text.before [';'] (Text.before " where ".toList (Text.before ['\x7b'] rest)))
    if result.isEmpty then none else some result

end CrateAudit.Rust
