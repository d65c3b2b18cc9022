/-
This file follows a buffer through any sequence of new texts for its lines: what the text of the
file becomes, and when the buffer is read back from it.
-/

import LintRepair.Proofs.Buffer.Delimited

namespace LintRepair.Buffer

/-- A new text for the line of a number. -/
structure Assignment where
  number : Nat
  text : List Char

/-- An assignment to a line that is not there changes nothing. -/
def assign (buffer : Buffer) (assignment : Assignment) : Buffer :=
  (buffer.setLine? assignment.number assignment.text).getD buffer

/-- The buffer of a text after assignments that are made one after the other. -/
def assigned (text : List Char) (assignments : List Assignment) : Buffer :=
  assignments.foldl assign (ofText text)

/-- The text that a line was given last. -/
def lastText? (assignments : List Assignment) (number : Nat) : Option (List Char) :=
  (assignments.filter fun assignment => assignment.number = number).getLast?.map Assignment.text

/-- A line can be set exactly when its number is one of the buffer's. -/
theorem setLineSucceeds_iff (buffer : Buffer) (number : Nat) (text : List Char) :
    (buffer.setLine? number text).isSome ↔ 1 ≤ number ∧ number ≤ buffer.size := by
  cases number with
  | zero => simp [setLine?]
  | succ index =>
    have inRange : (buffer.setLine? (index + 1) text).isSome ↔ index < buffer.lines.length := by
      by_cases inside : index < buffer.lines.length <;> simp [setLine?, inside]
    rw [inRange, size]
    omega

theorem assignMapTexts (buffer : Buffer) (assignment : Assignment) :
    buffer.assign assignment = buffer.mapTexts fun number text =>
      if number = assignment.number then assignment.text else text := by
  rw [assign, setLineMapTexts]
  cases known : buffer.line? assignment.number with
  | some line => rfl
  | none =>
    have untouched : ∀ number text, buffer.line? number = some text →
        (if number = assignment.number then assignment.text else text) = text := by
      intro number text isLine
      refine if_neg fun same => ?_
      rw [same, known] at isLine
      cases isLine
    exact buffer.mapTextsId.symm.trans (mapTextsCongr untouched).symm

theorem lastTextCons (assignment : Assignment) (assignments : List Assignment) (number : Nat)
    (old : List Char) :
    (lastText? (assignment :: assignments) number).getD old =
      (lastText? assignments number).getD
        (if number = assignment.number then assignment.text else old) := by
  by_cases own : number = assignment.number
  · simp only [lastText?, own, decide_true, List.filter_cons_of_pos, List.getLast?_cons,
      ↓reduceIte]
    cases (assignments.filter fun other => other.number = assignment.number).getLast? <;> rfl
  · simp [lastText?, own, Ne.symm own]

/-- Every line has the text that it was given last. -/
theorem assignAllMapTexts (buffer : Buffer) (assignments : List Assignment) :
    assignments.foldl assign buffer = buffer.mapTexts fun number text =>
      (lastText? assignments number).getD text := by
  induction assignments generalizing buffer with
  | nil => exact buffer.mapTextsId.symm
  | cons assignment assignments inductionHypothesis =>
    rw [List.foldl_cons, inductionHypothesis, assignMapTexts, mapTextsMapTexts]
    refine mapTextsCongr fun number text _ => ?_
    exact (lastTextCons assignment assignments number text).symm

theorem sizeOfMapTexts (change : Nat → List Char → List Char) (buffer : Buffer) :
    (buffer.mapTexts change).size = buffer.size := by
  simp [size, mapTexts]

theorem contentsOfMapTexts (change : Nat → List Char → List Char) (buffer : Buffer) :
    (buffer.mapTexts change).contents = (buffer.lines.mapIdx fun index line =>
      change (index + 1) line.text ++ line.ending.text).flatten := by
  simp only [contents, mapTexts, List.flatMap]
  congr 1
  apply List.ext_getElem <;> simp [Line.contents]

/-- New texts for lines are cut into the text of the file exactly. Through any assignments the
number of lines stays that of the text, and a line can be set exactly when its number is one of
them. The text becomes the old one with every line's text replaced by the last one assigned to it,
and all else is as it was. -/
theorem assignmentsSpliced (text : List Char) (assignments : List Assignment) :
    let result := assigned text assignments
    result.size = text.count '\n' + (if text ≠ [] ∧ text.getLast? ≠ some '\n' then 1 else 0) ∧
      (∀ next : Assignment, (result.setLine? next.number next.text).isSome ↔
        1 ≤ next.number ∧ next.number ≤ result.size) ∧
      (∃ original : Buffer, original.Delimits text ∧
        (∀ other : Buffer, other.Delimits text → other = original) ∧
        result.contents = (original.lines.mapIdx fun index line =>
          (lastText? assignments (index + 1)).getD line.text ++ line.ending.text).flatten) ∧
      (assigned text []).contents = text := by
  intro result
  have texts : result = (ofText text).mapTexts fun number line =>
      (lastText? assignments number).getD line := assignAllMapTexts (ofText text) assignments
  refine ⟨?_, fun next => setLineSucceeds_iff result next.number next.text, ?_,
    contentsOfText text⟩
  · rw [texts, sizeOfMapTexts, sizeOfText]
  · refine ⟨ofText text, delimitsOfText text, fun other delimits => ?_, ?_⟩
    · exact (delimits_iff.mp delimits).symm
    · rw [texts, contentsOfMapTexts]

example : (assigned "a\r\nb\nc".toList
    [⟨3, ['z']⟩, ⟨1, "x\ny".toList⟩, ⟨4, ['d']⟩, ⟨3, []⟩]).contents = "x\ny\r\nb\n".toList := by
  decide

theorem assignedTerminated (text : List Char) (assignments : List Assignment) :
    ∀ line ∈ (assigned text assignments).lines.dropLast, line.ending ≠ .none := by
  have endings : (assigned text assignments).lines.map Line.ending =
      (ofText text).lines.map Line.ending := by
    rw [assigned, assignAllMapTexts, mapTextsEndings]
  intro line inside
  have ending : line.ending ∈ ((ofText text).lines.map Line.ending).dropLast := by
    rw [← endings, ← List.map_dropLast]
    exact List.mem_map_of_mem inside
  rw [← List.map_dropLast] at ending
  obtain ⟨original, isOriginal, same⟩ := List.mem_map.mp ending
  rw [← same]
  exact (regularOfText text).terminated original isOriginal

/-- A buffer with new texts is read back from the text of the file exactly when no line holds a line
feed, no line before a bare line feed ends in a carriage return, and a last line without an ending
is not empty. -/
theorem assignedSurvives_iff (text : List Char) (assignments : List Assignment) :
    let buffer := assigned text assignments
    ofText buffer.contents = buffer ↔
      (∀ line ∈ buffer.lines, '\n' ∉ line.text) ∧
        (∀ line ∈ buffer.lines, line.ending = .lineFeed → line.text.getLast? ≠ some '\r') ∧
        ∀ last, buffer.lines.getLast? = some last → last.ending = .none → last.text ≠ [] := by
  intro buffer
  rw [← delimits_iff]
  constructor
  · intro delimits
    exact ⟨delimits.noLineFeed, delimits.noReturn, delimits.lastFilled⟩
  · intro ⟨noLineFeed, noReturn, lastFilled⟩
    exact ⟨rfl, noLineFeed, noReturn, assignedTerminated text assignments, lastFilled⟩

-- A carriage return at the end of a text is taken for a part of the ending.
example : ofText (assigned "a\nb".toList [⟨1, ['c', '\r']⟩]).contents =
    ⟨[⟨['c'], .carriageReturnLineFeed⟩, ⟨['b'], .none⟩]⟩ := by
  decide

end LintRepair.Buffer
