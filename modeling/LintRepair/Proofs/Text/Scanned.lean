/-
This file describes the scan for a pattern as a relation: at every place of the text the scan either
keeps a character or takes a match and goes on behind it.
-/

import LintRepair.Proofs.Text.Pieces

namespace LintRepair.Text

variable {Value : Type}

/-- A pattern consumes when each of its matches is a part at the front of the text ahead that is
not empty. -/
def Consumes (pattern : Pattern Value) : Prop :=
  Takes pattern fun part _ => part ≠ []

theorem Takes.consumes {pattern : Pattern Value} {Form : List Char → Value → Prop}
    (takes : Takes pattern Form) (filled : ∀ part value, Form part value → part ≠ []) :
    Consumes pattern := by
  intro before text value behind matched
  obtain ⟨part, form, whole⟩ := takes before text value behind matched
  exact ⟨part, filled part value form, whole⟩

/-- The part that stands before the text behind a match has its form. -/
theorem Takes.form {pattern : Pattern Value} {Form : List Char → Value → Prop}
    (takes : Takes pattern Form) {before : Option Char} {part behind : List Char} {value : Value}
    (matched : pattern before (part ++ behind) = some (value, behind)) : Form part value := by
  obtain ⟨taken, form, whole⟩ := takes before (part ++ behind) value behind matched
  rwa [List.append_cancel_right whole]

/-- Some pieces are those that a scan cuts off a text which stands behind a front. -/
inductive Scanned (pattern : Pattern Value) :
    List Char → List Char → List (Piece Value) → Prop
  | done (front : List Char) : Scanned pattern front [] []
  | kept {front text : List Char} {character : Char} {rest : List (Piece Value)}
      (nothing : pattern front.getLast? (character :: text) = none)
      (scanned : Scanned pattern (front ++ [character]) text rest) :
      Scanned pattern front (character :: text) (.kept character :: rest)
  | found {front part behind : List Char} {value : Value} {rest : List (Piece Value)}
      (notEmpty : part ≠ [])
      (matched : pattern front.getLast? (part ++ behind) = some (value, behind))
      (scanned : Scanned pattern (front ++ part) behind rest) :
      Scanned pattern front (part ++ behind) (.found part value :: rest)

theorem lastOfCons (character : Char) (part : List Char) (before : Option Char) :
    (character :: part).getLast?.or before = part.getLast?.or (some character) := by
  cases part with
  | nil => rfl
  | cons next part => simp [List.getLast?_eq_some_getLast]

/-- Covered characters are passed over. -/
theorem cutCovered (pattern : Pattern Value) (before : Option Char) (part behind : List Char) :
    cut pattern before part.length (part ++ behind) =
      cut pattern (part.getLast?.or before) 0 behind := by
  induction part generalizing before with
  | nil => rfl
  | cons character part inductionHypothesis =>
    rw [List.length_cons, List.cons_append, cut, inductionHypothesis, lastOfCons]

theorem scannedCut {pattern : Pattern Value} (consumes : Consumes pattern)
    (front text : List Char) :
    Scanned pattern front text (cut pattern front.getLast? 0 text) := by
  -- The text behind a match is shorter by more than one character.
  induction size : text.length using Nat.strongRecOn generalizing front text with
  | ind length inductionHypothesis =>
    cases text with
    | nil => exact .done front
    | cons character text =>
      rw [List.length_cons] at size
      cases matched : pattern front.getLast? (character :: text) with
      | none =>
        have rest := inductionHypothesis text.length (by omega) (front ++ [character]) text rfl
        rw [List.getLast?_append, List.getLast?_singleton, Option.some_or] at rest
        simp only [cut, matched]
        exact .kept matched rest
      | some result =>
        obtain ⟨value, behind⟩ := result
        obtain ⟨part, notEmpty, whole⟩ := consumes _ _ value behind matched
        obtain ⟨first, part, rfl⟩ := List.exists_cons_of_ne_nil notEmpty
        obtain ⟨rfl, rfl⟩ : character = first ∧ text = part ++ behind := by simpa using whole
        rw [List.length_append] at size
        have rest := inductionHypothesis behind.length (by omega) (front ++ character :: part)
          behind rfl
        have covered : (part ++ behind).length - behind.length = part.length := by simp
        have shorter : behind.length ≤ (part ++ behind).length := by simp
        rw [List.getLast?_append, lastOfCons, ← cutCovered] at rest
        have step : cut pattern front.getLast? 0 (character :: (part ++ behind)) =
            .found (character :: part) value ::
              cut pattern (some character) part.length (part ++ behind) := by
          simp only [cut, matched, shorter, ↓reduceIte, covered, List.take_left']
        rw [step]
        exact .found notEmpty matched rest

/-- The pieces of a text are scanned from its start. -/
theorem scannedPieces {pattern : Pattern Value} (consumes : Consumes pattern) (text : List Char) :
    Scanned pattern [] text (pieces pattern text) :=
  scannedCut consumes [] text

end LintRepair.Text
