/-
This file relates what a fixer reports to what it makes of a text.
-/

import LintRepair.Fix.Fixer
import LintRepair.Proofs.Fix.LineEdit
import LintRepair.Proofs.Fix.RequireImport

namespace LintRepair

namespace Patch

/-- The text of a file after the patch. -/
def result (patch : Patch) (text : List Char) : List Char :=
  patch.written.getD text

theorem lineEditResult {edit : LineEdit} (safe : edit.Safe) (text : List Char)
    (diagnostics : List Diagnostic) :
    (ofLineEdit edit text diagnostics).result text =
      (edit.apply (Buffer.ofText text) diagnostics).1.contents := by
  simp only [ofLineEdit, result]
  cases fixed : (edit.apply (Buffer.ofText text) diagnostics).2 with
  | nil => simpa using ((LineEdit.applyFixed_eq_nil_iff safe text diagnostics).mp fixed).symm
  | cons first rest => rfl

theorem conversionResult (text : List Char) (diagnostics : List Diagnostic) :
    (ofConversion text diagnostics).result text = (ImportConversion.ofText text).text := by
  simp only [ofConversion, result]
  split
  · next same => exact same.symm
  · rfl

/-- A line edit asks for a file to be written exactly if the text changes. -/
theorem lineEditWritten {edit : LineEdit} (safe : edit.Safe) (text : List Char)
    (diagnostics : List Diagnostic) :
    (ofLineEdit edit text diagnostics).written = none ↔
      (ofLineEdit edit text diagnostics).result text = text := by
  rw [lineEditResult safe, ← LineEdit.applyFixed_eq_nil_iff safe]
  simp [ofLineEdit]

theorem conversionWritten (text : List Char) (diagnostics : List Diagnostic) :
    (ofConversion text diagnostics).written = none ↔
      (ofConversion text diagnostics).result text = text := by
  rw [conversionResult]
  simp only [ofConversion]
  split
  · next same => simp [same]
  · next changed => simp [changed]

end Patch

namespace Fixer

/-- A patch asks for a file to be written exactly if the text changes. -/
theorem patchWritten (fixer : Fixer) (text : List Char) (diagnostics : List Diagnostic) :
    (fixer.patch text diagnostics).written = none ↔
      (fixer.patch text diagnostics).result text = text := by
  cases fixer with
  | unusedVariables => exact Patch.lineEditWritten LineEdit.blankDeclarationSafe text diagnostics
  | requireImports => exact Patch.conversionWritten text diagnostics
  | unusedParameters =>
    exact Patch.lineEditWritten LineEdit.prefixParameterSafe text diagnostics

/-- A patch reports a diagnostic exactly if the text changes. -/
theorem patchHonest (fixer : Fixer) (text : List Char) {diagnostics : List Diagnostic}
    (given : diagnostics ≠ []) : (fixer.patch text diagnostics).fixed = [] ↔
      (fixer.patch text diagnostics).result text = text := by
  rw [← fixer.patchWritten]
  have lineEdit : ∀ edit, (Patch.ofLineEdit edit text diagnostics).fixed = [] ↔
      (Patch.ofLineEdit edit text diagnostics).written = none := by
    intro edit
    simp [Patch.ofLineEdit]
  cases fixer with
  | unusedVariables => exact lineEdit _
  | unusedParameters => exact lineEdit _
  | requireImports =>
    simp only [patch, Patch.ofConversion]
    split
    · simp
    · simp [given]

/-- A patch reports some of the given diagnostics. -/
theorem patchSubperm (fixer : Fixer) (text : List Char) (diagnostics : List Diagnostic) :
    (fixer.patch text diagnostics).fixed.Subperm diagnostics := by
  cases fixer with
  | unusedVariables => exact LineEdit.applySubperm LineEdit.blankDeclaration _ diagnostics
  | unusedParameters => exact LineEdit.applySubperm LineEdit.prefixParameter _ diagnostics
  | requireImports =>
    simp only [patch, Patch.ofConversion]
    split
    · exact List.nil_subperm
    · exact List.Subperm.refl diagnostics

/-- There is nothing to patch in an empty text. -/
theorem patchEmpty (fixer : Fixer) (diagnostics : List Diagnostic) :
    (fixer.patch [] diagnostics).written = none := by
  have noLines : ∀ edit : LineEdit, edit.apply (Buffer.ofText []) diagnostics =
      (Buffer.ofText [], []) := fun edit => edit.applyInOrderNoLines _
  cases fixer with
  | unusedVariables => simp [patch, Patch.ofLineEdit, noLines]
  | unusedParameters => simp [patch, Patch.ofLineEdit, noLines]
  | requireImports => rfl

end Fixer

end LintRepair
