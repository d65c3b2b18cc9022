/-
This file holds the lines of one source text. Every line remembers its own ending, so a line that
nobody edits is written back as it was.
-/

import LintRepair.Text.Separate

namespace LintRepair

inductive LineEnding where
  | none
  | lineFeed
  | carriageReturnLineFeed
deriving Repr, DecidableEq

def LineEnding.text : LineEnding → List Char
  | none => []
  | lineFeed => ['\n']
  | carriageReturnLineFeed => ['\r', '\n']

structure Line where
  text : List Char
  ending : LineEnding
deriving Repr, DecidableEq

namespace Line

/-- A carriage return directly before the line feed belongs to the ending. -/
def ofTerminated (part : List Char) : Line :=
  match part.getLast? with
  | some '\r' => ⟨part.dropLast, .carriageReturnLineFeed⟩
  | _ => ⟨part, .lineFeed⟩

/-- All parts but the last stand before a line feed. An empty last part is no line. -/
def ofParts : List (List Char) → List Line
  | [] => []
  | [last] => if last.isEmpty then [] else [⟨last, .none⟩]
  | part :: parts => ofTerminated part :: ofParts parts

def contents (line : Line) : List Char :=
  line.text ++ line.ending.text

end Line

structure Buffer where
  lines : List Line
deriving Repr, DecidableEq

namespace Buffer

def ofText (text : List Char) : Buffer :=
  ⟨Line.ofParts (Text.separate '\n' text)⟩

def contents (buffer : Buffer) : List Char :=
  buffer.lines.flatMap Line.contents

def size (buffer : Buffer) : Nat :=
  buffer.lines.length

def isEmpty (buffer : Buffer) : Bool :=
  buffer.lines.isEmpty

/-- The text of a line without its ending. Lines count from one. -/
def line? (buffer : Buffer) : Nat → Option (List Char)
  | 0 => none
  | index + 1 => buffer.lines[index]?.map Line.text

/-- The buffer with a new text for one line, which keeps its ending. There is no result when the
buffer has no such line. -/
def setLine? (buffer : Buffer) (number : Nat) (text : List Char) : Option Buffer :=
  match number with
  | 0 => none
  | index + 1 =>
    if index < buffer.lines.length then
      some ⟨buffer.lines.modify index fun line => { line with text }⟩
    else none

theorem contentsTerminated (part : List Char) :
    (Line.ofTerminated part).contents = part ++ ['\n'] := by
  unfold Line.ofTerminated
  split
  · next ends =>
    obtain ⟨front, rfl⟩ := List.getLast?_eq_some_iff.mp ends
    simp [Line.contents, LineEnding.text]
  · rfl

theorem ofTextUnterminated {text : List Char} (noLineFeed : '\n' ∉ text) :
    ofText text = if text = [] then ⟨[]⟩ else ⟨[⟨text, .none⟩]⟩ := by
  rw [ofText, Text.separateWhole noLineFeed]
  by_cases empty : text = []
  · simp [Line.ofParts, empty]
  · simp [Line.ofParts, empty]

theorem ofTextTerminated {part : List Char} (noLineFeed : '\n' ∉ part) (text : List Char) :
    ofText (part ++ '\n' :: text) = ⟨Line.ofTerminated part :: (ofText text).lines⟩ := by
  rw [ofText, ofText, Text.separateAppend, Text.separateWhole noLineFeed]
  cases parts : Text.separate '\n' text with
  | nil => exact absurd parts (Text.separateNeNil '\n' text)
  | cons first rest => rfl

/-- A text that is cut into lines and written back is unchanged. -/
theorem contentsOfText (text : List Char) : (ofText text).contents = text := by
  induction text using Text.separateInduction '\n' with
  | last part noLineFeed =>
    rw [ofTextUnterminated noLineFeed]
    by_cases empty : part = []
    · simp [contents, empty]
    · simp [contents, Line.contents, LineEnding.text, empty]
  | further part text noLineFeed inductionHypothesis =>
    rw [contents] at inductionHypothesis
    rw [ofTextTerminated noLineFeed, contents, List.flatMap_cons, contentsTerminated,
      inductionHypothesis, List.append_assoc, List.singleton_append]

end Buffer

end LintRepair
