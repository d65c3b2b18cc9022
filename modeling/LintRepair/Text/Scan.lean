/-
This file cuts a text at the leftmost, non-overlapping occurrences of a pattern.
-/

import LintRepair.Text.Reader

namespace LintRepair.Text

/-- A pattern sees the character before a place and the text from that place on. Where it matches
it returns a value and the text behind the match. -/
abbrev Pattern (Value : Type) :=
  Option Char → List Char → Option (Value × List Char)

/-- A text is cut into characters that no match covers and matched parts. -/
inductive Piece (Value : Type) where
  | kept (character : Char)
  | found (part : List Char) (value : Value)
deriving Repr, DecidableEq

namespace Piece

variable {Value : Type}

/-- The part of the text that a piece stands for. -/
def text : Piece Value → List Char
  | kept character => [character]
  | found part _ => part

def value? : Piece Value → Option Value
  | kept _ => none
  | found _ value => some value

/-- The text with which a piece is written when every match is replaced. -/
def rendered (replacement : Value → List Char) : Piece Value → List Char
  | kept character => [character]
  | found _ value => replacement value

end Piece

variable {Value : Type}

/-- The second argument counts the characters that an earlier match still covers. A match that
covers nothing is no match. -/
def cut (pattern : Pattern Value) : Option Char → Nat → List Char → List (Piece Value)
  | _, _, [] => []
  | _, covered + 1, character :: text => cut pattern (some character) covered text
  | before, 0, character :: text =>
    match pattern before (character :: text) with
    | none => .kept character :: cut pattern (some character) 0 text
    | some (value, behind) =>
      if behind.length ≤ text.length then
        let covered := text.length - behind.length
        .found (character :: text.take covered) value ::
          cut pattern (some character) covered text
      else .kept character :: cut pattern (some character) 0 text

/-- The pieces of a whole text, from left to right. -/
def pieces (pattern : Pattern Value) (text : List Char) : List (Piece Value) :=
  cut pattern none 0 text

/-- The values of all matches, from left to right. -/
def occurrences (pattern : Pattern Value) (text : List Char) : List Value :=
  (pieces pattern text).filterMap Piece.value?

/-- Every match is written anew and all other characters stay. -/
def replaceAll (pattern : Pattern Value) (replacement : Value → List Char) (text : List Char) :
    List Char :=
  (pieces pattern text).flatMap (Piece.rendered replacement)

theorem cutText (pattern : Pattern Value) (before : Option Char) (covered : Nat)
    (text : List Char) :
    (cut pattern before covered text).flatMap Piece.text = text.drop covered := by
  induction text generalizing before covered with
  | nil => simp [cut]
  | cons character text inductionHypothesis =>
    cases covered with
    | succ covered => simp [cut, inductionHypothesis]
    | zero =>
      simp only [cut]
      split
      · simp [Piece.text, inductionHypothesis]
      · split
        · simp [Piece.text, inductionHypothesis, List.take_append_drop]
        · simp [Piece.text, inductionHypothesis]

/-- The pieces lose nothing of the text. -/
theorem piecesText (pattern : Pattern Value) (text : List Char) :
    (pieces pattern text).flatMap Piece.text = text := by
  simp [pieces, cutText]

end LintRepair.Text
