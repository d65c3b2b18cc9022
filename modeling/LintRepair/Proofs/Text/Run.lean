/-
This file lists the maximal runs of characters of a class in a text, each with the text behind it.
-/

import LintRepair.Proofs.Text.Reader
import LintRepair.Proofs.Text.Scanned

namespace LintRepair.Text

section

variable {inClass : Char → Bool}

/-- The maximal run that begins at a place, with the text behind it. None begins behind a character
of the class. -/
def runAt? (inClass : Char → Bool) (before : Option Char) (text : List Char) :
    Option (List Char × List Char) :=
  if before.any inClass then none else run? inClass text

/-- The maximal runs of a text, from left to right. -/
def runs (inClass : Char → Bool) : Option Char → List Char → List (List Char × List Char)
  | _, [] => []
  | before, character :: text =>
    (runAt? inClass before (character :: text)).toList ++ runs inClass (some character) text

theorem run_eq (text : List Char) :
    run? inClass text = if text.takeWhile inClass = [] then none
      else some (text.takeWhile inClass, text.dropWhile inClass) := by
  unfold run?
  split
  · next empty => rw [if_pos empty]
  · next filled => rw [if_neg filled]

/-- A run that is read ends where the class does. -/
theorem run_eq_some_iff {text run behind : List Char} :
    run? inClass text = some (run, behind) ↔ run ≠ [] ∧ (∀ character ∈ run, inClass character) ∧
      behind.head?.any inClass = false ∧ text = run ++ behind := by
  constructor
  · intro read
    obtain ⟨notEmpty, inside, whole⟩ := takesRun read
    have ends : behind = text.dropWhile inClass := by
      rw [run_eq] at read
      split at read
      · cases read
      · cases read
        rfl
    have stops : behind.head?.any inClass = false := ends ▸ dropWhileStops inClass text
    exact ⟨notEmpty, inside, stops, whole⟩
  · rintro ⟨notEmpty, inside, stops, rfl⟩
    exact readsRun notEmpty inside stops

theorem runAt_eq_some_iff {before : Option Char} {text run behind : List Char} :
    runAt? inClass before text = some (run, behind) ↔ before.any inClass = false ∧
      run ≠ [] ∧ (∀ character ∈ run, inClass character) ∧
      behind.head?.any inClass = false ∧ text = run ++ behind := by
  unfold runAt?
  split
  · next goesOn => simp [goesOn]
  · next starts => simpa [starts] using run_eq_some_iff

theorem runAtBehind {before : Option Char} (goesOn : before.any inClass) (text : List Char) :
    runAt? inClass before text = none :=
  if_pos goesOn

theorem runAtOutside {character : Char} (outside : inClass character = false)
    (before : Option Char) (text : List Char) :
    runAt? inClass before (character :: text) = none := by
  simp [runAt?, run?, outside]

/-- The runs are those parts that the class neither precedes nor follows. -/
theorem memRuns {before : Option Char} {text run behind : List Char} :
    (run, behind) ∈ runs inClass before text ↔ run ≠ [] ∧ (∀ character ∈ run, inClass character) ∧
      behind.head?.any inClass = false ∧
      ∃ front, (front.getLast?.or before).any inClass = false ∧ text = front ++ (run ++ behind) := by
  induction text generalizing before with
  | nil =>
    constructor
    · intro inRuns
      cases inRuns
    · rintro ⟨notEmpty, -, -, front, -, whole⟩
      simp [notEmpty] at whole
  | cons character text inductionHypothesis =>
    rw [runs, List.mem_append, Option.mem_toList, runAt_eq_some_iff,
      inductionHypothesis]
    constructor
    · rintro (⟨starts, notEmpty, inside, stops, whole⟩ |
        ⟨notEmpty, inside, stops, front, starts, rfl⟩)
      · exact ⟨notEmpty, inside, stops, [], starts, whole⟩
      · refine ⟨notEmpty, inside, stops, character :: front, ?_, rfl⟩
        rwa [lastOfCons]
    · rintro ⟨notEmpty, inside, stops, front, starts, whole⟩
      cases front with
      | nil => exact .inl ⟨starts, notEmpty, inside, stops, whole⟩
      | cons first front =>
        obtain ⟨rfl, rfl⟩ := List.cons_eq_cons.mp whole
        rw [lastOfCons] at starts
        exact .inr ⟨notEmpty, inside, stops, front, starts, rfl⟩

end

end LintRepair.Text
