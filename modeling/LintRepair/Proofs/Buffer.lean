/-
This file relates a buffer to the text that it is written to: which changes of its lines survive
when that text is cut into lines again.
-/

import LintRepair.Buffer
import Mathlib.Tactic.Common

namespace LintRepair

namespace Line

@[simp] theorem contentsOfUnterminated (text : List Char) :
    (Line.mk text .none).contents = text := by
  simp [contents, LineEnding.text]

/-- A line survives when no line feed stands in its text and its ending takes no carriage return
from the text. -/
structure Regular (line : Line) : Prop where
  noLineFeed : '\n' ∉ line.text
  noReturn : line.ending = .lineFeed → line.text.getLast? ≠ some '\r'

theorem regularTerminated {part : List Char} (noLineFeed : '\n' ∉ part) :
    (ofTerminated part).Regular := by
  unfold ofTerminated
  split
  · next ends =>
    obtain ⟨front, rfl⟩ := List.getLast?_eq_some_iff.mp ends
    refine ⟨?_, fun ending => by cases ending⟩
    simpa using fun inFront => noLineFeed (by simp [inFront])
  · next ends =>
    exact ⟨noLineFeed, fun _ returns => ends returns⟩

theorem terminatedEnding (part : List Char) : (ofTerminated part).ending ≠ .none := by
  unfold ofTerminated
  split <;> simp

/-- A regular line with an ending is read back from the text before its line feed. -/
theorem Regular.readBack {line : Line} (regular : line.Regular) (terminated : line.ending ≠ .none) :
    ∃ part, '\n' ∉ part ∧ line.contents = part ++ ['\n'] ∧ ofTerminated part = line := by
  obtain ⟨text, ending⟩ := line
  cases ending with
  | none => exact absurd rfl terminated
  | lineFeed =>
    refine ⟨text, regular.noLineFeed, by simp [contents, LineEnding.text], ?_⟩
    unfold ofTerminated
    split
    · next ends => exact absurd ends (regular.noReturn rfl)
    · rfl
  | carriageReturnLineFeed =>
    refine ⟨text ++ ['\r'], ?_, by simp [contents, LineEnding.text], ?_⟩
    · simpa using regular.noLineFeed
    · simp [ofTerminated]

end Line

namespace Buffer

/-- Every text is changed by a function that also sees the number of the line. Endings stay. -/
def mapTexts (change : Nat → List Char → List Char) (buffer : Buffer) : Buffer :=
  ⟨buffer.lines.mapIdx fun index line => { line with text := change (index + 1) line.text }⟩

theorem lineOfMapTexts (change : Nat → List Char → List Char) (buffer : Buffer) (number : Nat) :
    (buffer.mapTexts change).line? number = (buffer.line? number).map (change number) := by
  cases number with
  | zero => rfl
  | succ index => simp [line?, mapTexts, Function.comp_def]

theorem mapTextsCongr {first second : Nat → List Char → List Char} {buffer : Buffer}
    (same : ∀ number text, buffer.line? number = some text →
      first number text = second number text) :
    buffer.mapTexts first = buffer.mapTexts second := by
  simp only [mapTexts, Buffer.mk.injEq]
  apply List.ext_getElem
  · simp
  · intro index inFirst inSecond
    have inside : index < buffer.lines.length := by simpa using inFirst
    have known : buffer.line? (index + 1) = some buffer.lines[index].text := by
      simp [line?, inside]
    simp [same (index + 1) _ known]

theorem mapTextsMapTexts (first second : Nat → List Char → List Char) (buffer : Buffer) :
    (buffer.mapTexts first).mapTexts second =
      buffer.mapTexts fun number text => second number (first number text) := by
  simp [mapTexts, List.mapIdx_mapIdx, Function.comp_def]

theorem mapTextsId (buffer : Buffer) : (buffer.mapTexts fun _ text => text) = buffer := by
  simp only [mapTexts]
  congr 1
  apply List.ext_getElem <;> simp

theorem mapTextsEndings (change : Nat → List Char → List Char) (buffer : Buffer) :
    (buffer.mapTexts change).lines.map Line.ending = buffer.lines.map Line.ending := by
  apply List.ext_getElem <;> simp [mapTexts]

/-- A line is set exactly when it exists, and no other line changes. -/
theorem setLineMapTexts (buffer : Buffer) (number : Nat) (text : List Char) :
    buffer.setLine? number text =
      (buffer.line? number).map fun _ =>
        buffer.mapTexts fun other old => if other = number then text else old := by
  cases number with
  | zero => rfl
  | succ index =>
    by_cases inside : index < buffer.lines.length
    · simp only [setLine?, line?, inside, ↓reduceIte, List.getElem?_eq_getElem, Option.map_some,
        mapTexts, Nat.add_right_cancel_iff]
      congr 2
      apply List.ext_getElem
      · simp
      · intro other _ _
        by_cases same : index = other
        · simp [same]
        · simp [same, Ne.symm same]
    · simp [setLine?, line?, inside]

/-- All lines are regular, and only the last one may lack an ending. -/
structure Regular (buffer : Buffer) : Prop where
  lines : ∀ line ∈ buffer.lines, line.Regular
  terminated : ∀ line ∈ buffer.lines.dropLast, line.ending ≠ .none

theorem Regular.ofCons {line : Line} {lines : List Line}
    (regular : Regular ⟨line :: lines⟩) : Regular ⟨lines⟩ := by
  refine ⟨fun other inside => regular.lines other (List.mem_cons_of_mem _ inside), ?_⟩
  intro other inside
  cases lines with
  | nil => cases inside
  | cons next lines =>
    exact regular.terminated other (by
      rw [List.dropLast_cons_of_ne_nil (by simp)]
      exact List.mem_cons_of_mem _ inside)

theorem Regular.cons {line : Line} {lines : List Line} (regular : Regular ⟨lines⟩)
    (lineRegular : line.Regular) (terminated : line.ending ≠ .none) : Regular ⟨line :: lines⟩ := by
  refine ⟨List.forall_mem_cons.mpr ⟨lineRegular, regular.lines⟩, fun other inside => ?_⟩
  cases lines with
  | nil => cases inside
  | cons next lines =>
    rw [List.dropLast_cons_of_ne_nil (by simp)] at inside
    rcases List.mem_cons.mp inside with rfl | inLater
    · exact terminated
    · exact regular.terminated other inLater

/-- The last line is empty and has no ending, so that it leaves no trace in the text. -/
def EndsBlank (buffer : Buffer) : Prop :=
  buffer.lines.getLast? = some ⟨[], .none⟩

instance (buffer : Buffer) : Decidable buffer.EndsBlank :=
  inferInstanceAs (Decidable (_ = _))

/-- The buffer without a last line that leaves no trace. -/
def settled (buffer : Buffer) : Buffer :=
  if buffer.EndsBlank then ⟨buffer.lines.dropLast⟩ else buffer

theorem settledCons {line : Line} (terminated : line.ending ≠ .none) (lines : List Line) :
    settled ⟨line :: lines⟩ = ⟨line :: (settled ⟨lines⟩).lines⟩ := by
  cases lines with
  | nil =>
    have notBlank : line ≠ ⟨[], .none⟩ := fun blank => terminated (by rw [blank])
    simp [settled, EndsBlank, notBlank]
  | cons next lines =>
    simp only [settled, EndsBlank, List.getLast?_cons_cons]
    split
    · next blank => simp [blank]
    · next notBlank => simp [notBlank]

theorem settledOfSize {buffer : Buffer}
    (size : buffer.settled.lines.length = buffer.lines.length) : buffer.settled = buffer := by
  unfold settled at size ⊢
  split
  · next blank =>
    obtain ⟨front, whole⟩ := List.getLast?_eq_some_iff.mp blank
    simp [blank, whole] at size
  · rfl

/-- Every line that leaves a trace keeps its number. -/
theorem lineOfSettled (buffer : Buffer) (number : Nat) :
    buffer.settled.line? number = buffer.line? number ∨
      buffer.settled.line? number = none ∧ buffer.line? number = some [] := by
  unfold settled
  split
  · next blank =>
    obtain ⟨front, whole⟩ := List.getLast?_eq_some_iff.mp blank
    obtain ⟨lines⟩ := buffer
    obtain rfl : lines = front ++ [⟨[], .none⟩] := whole
    cases number with
    | zero => exact .inl rfl
    | succ index =>
      simp only [line?, List.dropLast_concat]
      rcases Nat.lt_trichotomy index front.length with before | rfl | behind
      · exact .inl (by rw [List.getElem?_append_left before])
      · exact .inr (by simp)
      · left
        rw [List.getElem?_eq_none (by omega), List.getElem?_eq_none (by simp; omega)]
  · exact .inl rfl

theorem contentsMapTextsSettled {change : Nat → List Char → List Char}
    (emptyStays : ∀ number, change number [] = []) (buffer : Buffer) :
    (buffer.settled.mapTexts change).contents = (buffer.mapTexts change).contents := by
  unfold settled
  split
  · next blank =>
    obtain ⟨front, whole⟩ := List.getLast?_eq_some_iff.mp blank
    simp [contents, mapTexts, whole, List.mapIdx_append, emptyStays]
  · rfl

/-- A regular buffer is read back from its text, but for a last line that leaves no trace. -/
theorem ofTextContents {buffer : Buffer} (regular : buffer.Regular) :
    ofText buffer.contents = buffer.settled := by
  obtain ⟨lines⟩ := buffer
  simp only [contents]
  induction lines with
  | nil => rfl
  | cons line lines inductionHypothesis =>
    by_cases terminated : line.ending = .none
    · -- Only the last line has no ending, so its text is all that is left to cut.
      cases lines with
      | cons next lines => exact absurd terminated (regular.terminated line (by simp))
      | nil =>
        obtain ⟨text, ending⟩ := line
        obtain rfl : ending = .none := terminated
        have noLineFeed := (regular.lines _ List.mem_cons_self).noLineFeed
        by_cases empty : text = []
        · simp [ofTextUnterminated, settled, EndsBlank, empty]
        · simp [ofTextUnterminated noLineFeed, settled, EndsBlank, empty]
    · obtain ⟨part, noLineFeed, written, readBack⟩ :=
        (regular.lines line List.mem_cons_self).readBack terminated
      rw [settledCons terminated, ← inductionHypothesis regular.ofCons, List.flatMap_cons, written,
        List.append_assoc, List.singleton_append, ofTextTerminated noLineFeed, readBack]

theorem regularOfText (text : List Char) : (ofText text).Regular := by
  induction text using Text.separateInduction '\n' with
  | last part noLineFeed =>
    rw [ofTextUnterminated noLineFeed]
    by_cases empty : part = []
    · rw [if_pos empty]
      exact ⟨by simp, by simp⟩
    · rw [if_neg empty]
      refine ⟨fun line inside => ?_, by simp⟩
      obtain rfl := List.mem_singleton.mp inside
      exact ⟨noLineFeed, fun ending => by cases ending⟩
  | further part text noLineFeed inductionHypothesis =>
    rw [ofTextTerminated noLineFeed]
    exact inductionHypothesis.cons (Line.regularTerminated noLineFeed) (Line.terminatedEnding part)

/-- Changed texts keep a buffer regular when they bring in no line feed and no carriage return at
their end. -/
theorem Regular.mapTexts {buffer : Buffer} (regular : buffer.Regular)
    {change : Nat → List Char → List Char}
    (noLineFeed : ∀ number text, '\n' ∉ text → '\n' ∉ change number text)
    (noReturn : ∀ number text, text.getLast? ≠ some '\r' →
      (change number text).getLast? ≠ some '\r') : (buffer.mapTexts change).Regular := by
  refine ⟨?_, ?_⟩
  · intro line inside
    obtain ⟨index, inBounds, rfl⟩ := List.mem_mapIdx.mp inside
    have old := regular.lines _ (List.getElem_mem inBounds)
    exact ⟨noLineFeed _ _ old.noLineFeed, fun ending => noReturn _ _ (old.noReturn ending)⟩
  · intro line inside
    rw [Buffer.mapTexts, List.dropLast_eq_take, List.mem_take_iff_getElem] at inside
    obtain ⟨index, inBounds, rfl⟩ := inside
    simp only [List.length_mapIdx, List.getElem_mapIdx] at inBounds ⊢
    refine regular.terminated _ ?_
    rw [List.dropLast_eq_take, List.mem_take_iff_getElem]
    exact ⟨index, by omega, rfl⟩

/-- The last line of a text leaves a trace. -/
theorem notEndsBlankOfText (text : List Char) : ¬ (ofText text).EndsBlank := by
  intro blank
  have readBack := ofTextContents (regularOfText text)
  rw [contentsOfText, settled, if_pos blank] at readBack
  have size := congrArg (fun buffer : Buffer => buffer.lines.length) readBack
  have positive : 0 < (ofText text).lines.length :=
    List.length_pos_of_mem (List.mem_of_getLast? blank)
  simp only [List.length_dropLast] at size
  omega

/-- Changed texts of which none becomes empty are read back line by line. -/
theorem ofTextMapTexts (text : List Char) {change : Nat → List Char → List Char}
    (noLineFeed : ∀ number text, '\n' ∉ text → '\n' ∉ change number text)
    (noReturn : ∀ number text, text.getLast? ≠ some '\r' →
      (change number text).getLast? ≠ some '\r')
    (notEmpty : ∀ number text, text ≠ [] → change number text ≠ []) :
    ofText ((ofText text).mapTexts change).contents = (ofText text).mapTexts change := by
  rw [ofTextContents ((regularOfText text).mapTexts noLineFeed noReturn), settled, if_neg]
  intro blank
  refine notEndsBlankOfText text ?_
  simp only [EndsBlank, mapTexts, List.getLast?_eq_getElem?, List.getElem?_mapIdx,
    List.length_mapIdx, Option.map_eq_some_iff] at blank ⊢
  obtain ⟨line, known, changed⟩ := blank
  obtain ⟨old, ending⟩ := line
  simp only [Line.mk.injEq] at changed
  obtain ⟨empty, rfl⟩ := changed
  rw [known]
  by_contra other
  exact notEmpty _ old (by rintro rfl; exact other rfl) empty

end Buffer

end LintRepair
