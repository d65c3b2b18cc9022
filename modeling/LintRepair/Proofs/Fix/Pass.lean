/-
This file compares two ways to make several passes over the lines of a text: on one buffer that is
kept in memory, and through the text, from which every pass reads its buffer again.
-/

import LintRepair.Proofs.Fix.LineEdit

namespace LintRepair

/-- One pass of a fixer that edits single lines. -/
inductive Pass where
  | unusedVariables (diagnostics : List Diagnostic)
  | unusedParameters (diagnostics : List Diagnostic)

namespace Pass

def edit : Pass → LineEdit
  | unusedVariables _ => LineEdit.blankDeclaration
  | unusedParameters _ => LineEdit.prefixParameter

def diagnostics : Pass → List Diagnostic
  | unusedVariables diagnostics => diagnostics
  | unusedParameters diagnostics => diagnostics

def run (pass : Pass) (buffer : Buffer) : Buffer × List Diagnostic :=
  pass.edit.apply buffer pass.diagnostics

/-- The buffer and the answered diagnostics after every pass over one buffer. -/
def kept : Buffer → List Pass → List (Buffer × List Diagnostic)
  | _, [] => []
  | buffer, pass :: passes => pass.run buffer :: kept (pass.run buffer).1 passes

/-- The same when every pass works on a buffer that is read anew from the text left before it. -/
def reloaded : Buffer → List Pass → List (Buffer × List Diagnostic)
  | _, [] => []
  | buffer, pass :: passes =>
    pass.run (Buffer.ofText buffer.contents) ::
      reloaded (pass.run (Buffer.ofText buffer.contents)).1 passes

/-- What is seen of a pass from outside: the text that it leaves and the diagnostics it answered. -/
def observed (result : Buffer × List Diagnostic) : List Char × List Diagnostic :=
  (result.1.contents, result.2)

theorem editSafe (pass : Pass) : pass.edit.Safe := by
  cases pass with
  | unusedVariables => exact LineEdit.blankDeclarationSafe
  | unusedParameters => exact LineEdit.prefixParameterSafe

theorem runRegular (pass : Pass) {buffer : Buffer} (regular : buffer.Regular) :
    (pass.run buffer).1.Regular :=
  LineEdit.applyRegular pass.editSafe regular pass.diagnostics

theorem runEndings (pass : Pass) (buffer : Buffer) :
    (pass.run buffer).1.lines.map Line.ending = buffer.lines.map Line.ending :=
  LineEdit.applyEndings pass.edit buffer pass.diagnostics

/-- A pass sees no difference between a buffer and the one that is read from its text. -/
theorem observedRunOfText (pass : Pass) {buffer : Buffer} (regular : buffer.Regular) :
    observed (pass.run (Buffer.ofText buffer.contents)) = observed (pass.run buffer) := by
  obtain ⟨sameContents, sameFixed⟩ :=
    LineEdit.applySettled pass.editSafe buffer pass.diagnostics
  rw [Buffer.ofTextContents regular]
  exact Prod.ext sameContents sameFixed

theorem observedKept {buffer other : Buffer} (regular : buffer.Regular)
    (sameContents : buffer.contents = other.contents) (passes : List Pass) :
    (kept buffer passes).map observed = (reloaded other passes).map observed := by
  induction passes generalizing buffer other with
  | nil => rfl
  | cons pass passes inductionHypothesis =>
    have same := pass.observedRunOfText regular
    rw [sameContents] at same
    simp only [kept, reloaded, List.map_cons, same, List.cons.injEq, true_and]
    exact inductionHypothesis (pass.runRegular regular) (congrArg Prod.fst same).symm

theorem keptRegular {buffer : Buffer} (regular : buffer.Regular) {passes : List Pass}
    {result : Buffer × List Diagnostic} (isResult : result ∈ kept buffer passes) :
    result.1.Regular ∧ result.1.lines.map Line.ending = buffer.lines.map Line.ending := by
  induction passes generalizing buffer with
  | nil => cases isResult
  | cons pass passes inductionHypothesis =>
    rcases List.mem_cons.mp isResult with rfl | isLater
    · exact ⟨pass.runRegular regular, pass.runEndings buffer⟩
    · obtain ⟨laterRegular, laterEndings⟩ := inductionHypothesis (pass.runRegular regular) isLater
      exact ⟨laterRegular, laterEndings.trans (pass.runEndings buffer)⟩

/-- Passes over a kept buffer and passes through the text leave the same texts and answer the same
diagnostics. After every pass the text is read back as the kept buffer, but for a last line without
an ending that has been blanked; so the lines keep their endings and every remaining line its
number. -/
theorem keptAgreesWithReloaded (text : List Char) (passes : List Pass) :
    (kept (Buffer.ofText text) passes).map observed =
        (reloaded (Buffer.ofText text) passes).map observed ∧
      ∀ result ∈ kept (Buffer.ofText text) passes,
        Buffer.ofText result.1.contents =
            (if result.1.lines.getLast? = some ⟨[], .none⟩ then ⟨result.1.lines.dropLast⟩
              else result.1) ∧
          result.1.lines.map Line.ending = (Buffer.ofText text).lines.map Line.ending ∧
          ∀ number line, (Buffer.ofText result.1.contents).line? number = some line →
            result.1.line? number = some line := by
  have start := Buffer.regularOfText text
  refine ⟨observedKept start rfl passes, fun result isResult => ?_⟩
  obtain ⟨regular, endings⟩ := keptRegular start isResult
  have readBack := Buffer.ofTextContents regular
  refine ⟨readBack, endings, fun number line known => ?_⟩
  rw [readBack] at known
  rcases result.1.lineOfSettled number with same | ⟨absent, -⟩
  · rwa [← same]
  · simp [absent] at known

end Pass

end LintRepair
