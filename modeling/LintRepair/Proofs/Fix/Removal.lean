/-
This file states exactly what the removal of unused declarations does to the lines of a text, and
that removals for two lists of diagnostics add up to one removal for both.
-/

import LintRepair.Proofs.Fix.LineEdit

namespace LintRepair.LineEdit

theorem applyDescending (edit : LineEdit) (buffer : Buffer) (diagnostics : List Diagnostic) :
    (edit.apply buffer diagnostics).2.Pairwise fun left right => right.line ≤ left.line :=
  (Diagnostic.descendingSorted diagnostics).sublist (applyInOrderSublist edit buffer _)

/-- On a removable line the first of its diagnostics is answered, on any other line none. -/
theorem blankAnswers (buffer : Buffer) (diagnostics : List Diagnostic) (number : Nat) :
    (blankDeclaration.apply buffer diagnostics).2.filter
        (fun diagnostic => diagnostic.line = number) =
      if (buffer.line? number).any Declaration.isRemovable then
        (diagnostics.find? fun diagnostic => diagnostic.line = number).toList
      else [] := by
  have first : (diagnostics.filter fun diagnostic => diagnostic.line = number).take 1 =
      (diagnostics.find? fun diagnostic => diagnostic.line = number).toList := by
    rw [List.take_one, List.head?_filter]
  rw [applyFixed blankDeclarationSafe]
  cases buffer.line? number with
  | none => simp
  | some line => simp [blankChanges, first]

theorem memBlankAnswers (buffer : Buffer) (diagnostics : List Diagnostic)
    (diagnostic : Diagnostic) :
    diagnostic ∈ (blankDeclaration.apply buffer diagnostics).2 ↔
      (buffer.line? diagnostic.line).any Declaration.isRemovable ∧
        diagnostics.find? (fun other => other.line = diagnostic.line) = some diagnostic := by
  have onLine : diagnostic ∈ (blankDeclaration.apply buffer diagnostics).2 ↔
      diagnostic ∈ (blankDeclaration.apply buffer diagnostics).2.filter
        fun other => other.line = diagnostic.line := by
    simp
  rw [onLine, blankAnswers]
  split
  · next removable => simp [removable]
  · next stays => simp [stays]

theorem blankStrictlyDescending (buffer : Buffer) (diagnostics : List Diagnostic) :
    (blankDeclaration.apply buffer diagnostics).2.Pairwise
      fun left right => right.line < left.line := by
  apply Diagnostic.strictlyDescending (applyDescending blankDeclaration buffer diagnostics)
  intro number
  rw [blankAnswers]
  split
  · cases diagnostics.find? fun diagnostic => diagnostic.line = number <;> simp
  · simp

/-- A line becomes empty when it is removable and has a diagnostic. Every other line, every ending
and the number of lines stay. Each line that was blanked has one answered diagnostic, the first
that was given for it, and the highest line is answered first. -/
theorem declarationsBlanked (text : List Char) (diagnostics : List Diagnostic) :
    let before := Buffer.ofText text
    let result := blankDeclaration.apply before diagnostics
    (∀ number, result.1.line? number = (before.line? number).map fun line =>
        if (∃ diagnostic ∈ diagnostics, diagnostic.line = number) ∧ Declaration.isRemovable line
          then [] else line) ∧
      result.1.size = before.size ∧
      result.1.lines.map Line.ending = before.lines.map Line.ending ∧
      result.2.Pairwise (fun left right => right.line < left.line) ∧
      ∀ diagnostic, diagnostic ∈ result.2 ↔
        (before.line? diagnostic.line).any Declaration.isRemovable ∧
          diagnostics.find? (fun other => other.line = diagnostic.line) = some diagnostic := by
  intro before result
  have endings : result.1.lines.map Line.ending = before.lines.map Line.ending :=
    applyEndings blankDeclaration before diagnostics
  have size : result.1.size = before.size := by
    have sameLength := congrArg List.length endings
    simpa [Buffer.size] using sameLength
  refine ⟨fun number => ?_, size, endings, blankStrictlyDescending before diagnostics,
    memBlankAnswers before diagnostics⟩
  have steps : ∀ line, (diagnostics.filter fun diagnostic => diagnostic.line = number).foldl
      blankDeclaration.step line =
        if (∃ diagnostic ∈ diagnostics, diagnostic.line = number) ∧ Declaration.isRemovable line
          then [] else line := by
    intro line
    rw [blankSteps]
    apply if_congr _ rfl rfl
    simp [List.filter_eq_nil_iff]
  show (blankDeclaration.apply before diagnostics).1.line? number = _
  rw [applyBuffer, Buffer.lineOfMapTexts]
  exact congrArg (fun change => (before.line? number).map change) (funext steps)

theorem changesAppend (edit : LineEdit) (line : List Char) (first second : List Diagnostic) :
    edit.changes line (first ++ second) =
      edit.changes line first ++ edit.changes (first.foldl edit.step line) second := by
  induction first generalizing line with
  | nil => rfl
  | cons diagnostic first inductionHypothesis =>
    simp only [List.cons_append, changes, List.foldl_cons]
    split
    · next same => rw [inductionHypothesis, same]
    · rw [inductionHypothesis, List.cons_append]

/-- On one buffer, two lists of diagnostics do together what they do one after the other. -/
theorem applyAppend {edit : LineEdit} (safe : edit.Safe) (buffer : Buffer)
    (first second : List Diagnostic) :
    let once := edit.apply buffer first
    let both := edit.apply buffer (first ++ second)
    (edit.apply once.1 second).1 = both.1 ∧
      (once.2 ++ (edit.apply once.1 second).2).Perm both.2 := by
  intro once both
  have onceBuffer : once.1 = buffer.mapTexts fun number line =>
      (first.filter fun diagnostic => diagnostic.line = number).foldl edit.step line :=
    applyBuffer edit buffer first
  constructor
  · show _ = (edit.apply buffer (first ++ second)).1
    rw [applyBuffer edit once.1, onceBuffer, Buffer.mapTextsMapTexts,
      applyBuffer edit buffer (first ++ second)]
    simp only [List.filter_append, List.foldl_append]
  · apply Diagnostic.permOfLines
    intro number
    have onceFixed := applyFixed safe buffer first number
    have bothFixed := applyFixed safe buffer (first ++ second) number
    have laterFixed := applyFixed safe once.1 second number
    rw [List.filter_append, onceFixed, laterFixed, bothFixed, onceBuffer, Buffer.lineOfMapTexts]
    cases buffer.line? number with
    | none => rfl
    | some line => simp [changesAppend]

/-- The same through the text, from which the second list reads its lines again. -/
theorem applyReloaded {edit : LineEdit} (safe : edit.Safe) (text : List Char)
    (first second : List Diagnostic) :
    let once := edit.apply (Buffer.ofText text) first
    let later := edit.apply (Buffer.ofText once.1.contents) second
    let both := edit.apply (Buffer.ofText text) (first ++ second)
    later.1.contents = both.1.contents ∧ (once.2 ++ later.2).Perm both.2 := by
  intro once later both
  have regular : once.1.Regular := applyRegular safe (Buffer.regularOfText text) first
  obtain ⟨sameContents, sameFixed⟩ := applySettled safe once.1 second
  rw [← Buffer.ofTextContents regular] at sameContents sameFixed
  obtain ⟨sameBuffer, perm⟩ := applyAppend safe (Buffer.ofText text) first second
  constructor
  · exact sameContents.trans (congrArg Buffer.contents sameBuffer)
  · rw [← sameFixed] at perm
    exact perm

/-- The order of the lists makes no difference to the text without its removable lines. -/
theorem blankSwapped (buffer : Buffer) (first second : List Diagnostic) :
    (blankDeclaration.apply buffer (first ++ second)).1 =
      (blankDeclaration.apply buffer (second ++ first)).1 := by
  rw [applyBuffer, applyBuffer]
  apply Buffer.mapTextsCongr
  intro number line _
  rw [blankSteps, blankSteps]
  apply if_congr _ rfl rfl
  simp [List.filter_append, and_comm]

/-- Lines that have been answered once are not answered again. -/
theorem blankAnsweredBefore (text : List Char) {first second : List Diagnostic}
    (covered : ∀ diagnostic ∈ second, ∃ other ∈ first, other.line = diagnostic.line) :
    (blankDeclaration.apply
      (Buffer.ofText (blankDeclaration.apply (Buffer.ofText text) first).1.contents)
      second).2 = [] := by
  have perm := (applyReloaded blankDeclarationSafe text first second).2
  -- Both together answer only what the first list answers, which leaves nothing for the second.
  have sameAnswers : (blankDeclaration.apply (Buffer.ofText text) (first ++ second)).2.Perm
      (blankDeclaration.apply (Buffer.ofText text) first).2 := by
    apply Diagnostic.permOfLines
    intro number
    rw [blankAnswers, blankAnswers, List.find?_append]
    cases known : first.find? fun diagnostic => diagnostic.line = number with
    | some diagnostic => rfl
    | none =>
      have absent : (second.find? fun diagnostic => diagnostic.line = number) = none := by
        rw [List.find?_eq_none] at known ⊢
        intro diagnostic inSecond onLine
        obtain ⟨other, inFirst, sameLine⟩ := covered diagnostic inSecond
        apply known other inFirst
        rwa [sameLine]
      rw [absent, Option.none_or]
  have lengths := (perm.trans sameAnswers).length_eq
  rw [List.length_append] at lengths
  exact List.length_eq_zero_iff.mp (by omega)

end LintRepair.LineEdit
