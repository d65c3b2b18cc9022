/-
This file reads the parts that patterns are made of. A reader takes the text ahead and returns
the text behind the part it read.
-/

import LintRepair.Unicode.CharacterClass

namespace LintRepair.Text

open Unicode

/-- This reader accepts exactly the given literal. -/
def literal? : List Char → List Char → Option (List Char)
  | [], text => some text
  | _ :: _, [] => none
  | expected :: literal, character :: text =>
    if expected = character then literal? literal text else none

/-- White space of any length, none included. -/
def skipBlanks (text : List Char) : List Char :=
  text.dropWhile isBlank

/-- White space of at least one character. -/
def blanks? : List Char → Option (List Char)
  | [] => none
  | character :: text => if isBlank character then some (skipBlanks text) else none

/-- The longest non-empty run of characters of a class, with the text behind it. -/
def run? (inClass : Char → Bool) (text : List Char) : Option (List Char × List Char) :=
  match text.takeWhile inClass with
  | [] => none
  | run => some (run, text.dropWhile inClass)

/-- A run of word characters. -/
def word? (text : List Char) : Option (List Char × List Char) :=
  run? isWordCharacter text

/-- A single or a double quotation mark; the two marks around a text need not agree. -/
def isQuote (character : Char) : Bool :=
  character == '\'' || character == '"'

def quote? : List Char → Option (List Char)
  | [] => none
  | character :: text => if isQuote character then some text else none

/-- A quoted, non-empty text without quotation marks inside, between parentheses. -/
def quotedArgument? (text : List Char) : Option (List Char × List Char) := do
  let text ← literal? ['('] text
  let text ← quote? text
  let (argument, text) ← run? (fun character => !isQuote character) text
  let text ← quote? text
  let text ← literal? [')'] text
  return (argument, text)

/-- A word starts or ends between two neighbouring characters when exactly one of them is a word
character; the ends of the text count as no word character. -/
def isWordBoundary (before after : Option Char) : Bool :=
  before.any isWordCharacter != after.any isWordCharacter

theorem literalAppend (literal text : List Char) :
    literal? literal (literal ++ text) = some text := by
  induction literal with
  | nil => simp [literal?]
  | cons character literal inductionHypothesis => simp [literal?, inductionHypothesis]

theorem literal_eq_some_iff {literal text behind : List Char} :
    literal? literal text = some behind ↔ text = literal ++ behind := by
  constructor
  · intro read
    induction literal generalizing text with
    | nil => simpa [literal?] using read
    | cons expected literal inductionHypothesis =>
      cases text with
      | nil => simp [literal?] at read
      | cons character text =>
        simp only [literal?] at read
        split at read
        · next equal => rw [equal, List.cons_append, inductionHypothesis read]
        · cases read
  · rintro rfl
    exact literalAppend literal behind

end LintRepair.Text
