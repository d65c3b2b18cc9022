/-
This file shows what the pieces of a cut text hold, and what a replacement of every match makes of
the text.
-/

import LintRepair.Text.Scan
import Mathlib.Tactic.Common

namespace LintRepair.Text

variable {Value : Type}

/-- A pattern takes forms when each of its matches is a part of a known form at the front of the
text ahead. -/
def Takes (pattern : Pattern Value) (Form : List Char → Value → Prop) : Prop :=
  ∀ before text value behind, pattern before text = some (value, behind) →
    ∃ part, Form part value ∧ text = part ++ behind

/-- The found parts among some pieces have a known form. -/
def Formed (Form : List Char → Value → Prop) (cutPieces : List (Piece Value)) : Prop :=
  ∀ part value, Piece.found part value ∈ cutPieces → Form part value

theorem Formed.tail {Form : List Char → Value → Prop} {piece : Piece Value}
    {cutPieces : List (Piece Value)} (formed : Formed Form (piece :: cutPieces)) :
    Formed Form cutPieces :=
  fun part value found => formed part value (List.mem_cons_of_mem _ found)

theorem Formed.head {Form : List Char → Value → Prop} {part : List Char} {value : Value}
    {cutPieces : List (Piece Value)} (formed : Formed Form (.found part value :: cutPieces)) :
    Form part value :=
  formed part value List.mem_cons_self

/-- The part that a cut sets off is the one that the pattern took. -/
theorem formedCut {pattern : Pattern Value} {Form : List Char → Value → Prop}
    (takes : Takes pattern Form) (before : Option Char) (covered : Nat) (text : List Char) :
    Formed Form (cut pattern before covered text) := by
  induction text generalizing before covered with
  | nil => simp [Formed, cut]
  | cons character text inductionHypothesis =>
    cases covered with
    | succ covered => exact inductionHypothesis (some character) covered
    | zero =>
      have keeps : Formed Form (.kept character :: cut pattern (some character) 0 text) := by
        intro part value found
        rcases List.mem_cons.mp found with isKept | found
        · cases isKept
        · exact inductionHypothesis (some character) 0 part value found
      simp only [cut]
      split
      · exact keeps
      · next value behind matched =>
        split
        · next shorter =>
          obtain ⟨part, form, whole⟩ := takes before _ value behind matched
          -- The part is not empty, because less than the whole text is left behind it.
          cases part with
          | nil =>
            have long := congrArg List.length whole
            simp only [List.nil_append, List.length_cons] at long
            omega
          | cons first part =>
            have parted : character = first ∧ text = part ++ behind := by simpa using whole
            have taken : text.take (text.length - behind.length) = part := by simp [parted.2]
            rw [taken, parted.1]
            intro otherPart otherValue found
            rcases List.mem_cons.mp found with isFound | found
            · cases isFound
              exact form
            · exact inductionHypothesis _ _ otherPart otherValue found
        · exact keeps

theorem formedPieces {pattern : Pattern Value} {Form : List Char → Value → Prop}
    (takes : Takes pattern Form) (text : List Char) : Formed Form (pieces pattern text) :=
  formedCut takes none 0 text

/-- Without a match every piece is one kept character. -/
theorem renderedWithoutFound {cutPieces : List (Piece Value)}
    (nothing : cutPieces.filterMap Piece.value? = []) (replacement : Value → List Char) :
    cutPieces.flatMap (Piece.rendered replacement) = cutPieces.flatMap Piece.text := by
  induction cutPieces with
  | nil => rfl
  | cons piece cutPieces inductionHypothesis =>
    cases piece with
    | kept character =>
      simp only [List.flatMap_cons, Piece.rendered, Piece.text]
      rw [inductionHypothesis (by simpa [Piece.value?] using nothing)]
    | found part value => simp [Piece.value?] at nothing

theorem replaceAllWithoutMatch {pattern : Pattern Value} {text : List Char}
    (nothing : occurrences pattern text = []) (replacement : Value → List Char) :
    replaceAll pattern replacement text = text := by
  rw [replaceAll, renderedWithoutFound nothing, piecesText]

theorem countRendered {Form : List Char → Value → Prop} {cutPieces : List (Piece Value)}
    (formed : Formed Form cutPieces) {replacement : Value → List Char} {counts : Char → Bool}
    {gain loss : Nat}
    (shift : ∀ part value, Form part value →
      (replacement value).countP counts + loss = part.countP counts + gain) :
    (cutPieces.flatMap (Piece.rendered replacement)).countP counts +
        loss * (cutPieces.filterMap Piece.value?).length =
      (cutPieces.flatMap Piece.text).countP counts +
        gain * (cutPieces.filterMap Piece.value?).length := by
  induction cutPieces with
  | nil => rfl
  | cons piece cutPieces inductionHypothesis =>
    have rest := inductionHypothesis formed.tail
    cases piece with
    | kept character =>
      simp only [List.flatMap_cons, Piece.rendered, Piece.text, List.countP_append,
        List.filterMap_cons, Piece.value?]
      omega
    | found part value =>
      have first := shift part value formed.head
      simp only [List.flatMap_cons, Piece.rendered, Piece.text, List.countP_append,
        List.filterMap_cons, Piece.value?, List.length_cons, Nat.mul_add, Nat.mul_one]
      omega

/-- When every match gains and loses the same number of characters of a class, a text changes its
number of such characters once for every match. -/
theorem countReplaceAll {pattern : Pattern Value} {Form : List Char → Value → Prop}
    (takes : Takes pattern Form) {replacement : Value → List Char} {counts : Char → Bool}
    {gain loss : Nat}
    (shift : ∀ part value, Form part value →
      (replacement value).countP counts + loss = part.countP counts + gain) (text : List Char) :
    (replaceAll pattern replacement text).countP counts +
        loss * (occurrences pattern text).length =
      text.countP counts + gain * (occurrences pattern text).length := by
  have counted := countRendered (formedPieces takes text) shift
  rwa [piecesText] at counted

theorem getLastRendered {Form : List Char → Value → Prop} {cutPieces : List (Piece Value)}
    (formed : Formed Form cutPieces) {replacement : Value → List Char}
    (sameEnd : ∀ part value, Form part value → (replacement value).getLast? = part.getLast?) :
    (cutPieces.flatMap (Piece.rendered replacement)).getLast? =
      (cutPieces.flatMap Piece.text).getLast? := by
  induction cutPieces with
  | nil => rfl
  | cons piece cutPieces inductionHypothesis =>
    rw [List.flatMap_cons, List.flatMap_cons, List.getLast?_append, List.getLast?_append,
      inductionHypothesis formed.tail]
    cases piece with
    | kept character => rfl
    | found part value => rw [Piece.rendered, Piece.text, sameEnd part value formed.head]

/-- Replacements that end as their matches do leave the end of a text as it was. -/
theorem getLastReplaceAll {pattern : Pattern Value} {Form : List Char → Value → Prop}
    (takes : Takes pattern Form) {replacement : Value → List Char}
    (sameEnd : ∀ part value, Form part value → (replacement value).getLast? = part.getLast?)
    (text : List Char) : (replaceAll pattern replacement text).getLast? = text.getLast? := by
  have rendered := getLastRendered (formedPieces takes text) sameEnd
  rwa [piecesText] at rendered

theorem memRendered {Form : List Char → Value → Prop} {cutPieces : List (Piece Value)}
    (formed : Formed Form cutPieces) {replacement : Value → List Char} {Brought : Char → Prop}
    (brings : ∀ part value, Form part value →
      ∀ character ∈ replacement value, character ∈ part ∨ Brought character)
    {character : Char} (inside : character ∈ cutPieces.flatMap (Piece.rendered replacement)) :
    character ∈ cutPieces.flatMap Piece.text ∨ Brought character := by
  obtain ⟨piece, isPiece, rendered⟩ := List.mem_flatMap.mp inside
  cases piece with
  | kept other => exact .inl (List.mem_flatMap.mpr ⟨_, isPiece, rendered⟩)
  | found part value =>
    rcases brings part value (formed part value isPiece) character rendered with old | new
    · exact .inl (List.mem_flatMap.mpr ⟨_, isPiece, old⟩)
    · exact .inr new

/-- A text holds no other characters after a replacement than those that it held before and those
that the replacement brings. -/
theorem memReplaceAll {pattern : Pattern Value} {Form : List Char → Value → Prop}
    (takes : Takes pattern Form) {replacement : Value → List Char} {Brought : Char → Prop}
    (brings : ∀ part value, Form part value →
      ∀ character ∈ replacement value, character ∈ part ∨ Brought character)
    {text : List Char} {character : Char}
    (inside : character ∈ replaceAll pattern replacement text) :
    character ∈ text ∨ Brought character := by
  have rendered := memRendered (formedPieces takes text) brings inside
  rwa [piecesText] at rendered

end LintRepair.Text
