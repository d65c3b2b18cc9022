/-
This file holds the three fixers and what each makes of the text of a file.
-/

import LintRepair.Fix.LineEdit
import LintRepair.Fix.RequireImport

namespace LintRepair

inductive Fixer where
  | unusedVariables
  | requireImports
  | unusedParameters
deriving Repr, DecidableEq

/-- What a fixer makes of a text: the diagnostics that it resolved, the new text if the file is to
be written, and the number of imports that are now awaited twice. -/
structure Patch where
  fixed : List Diagnostic
  written : Option (List Char)
  doubleAwaited : Nat
deriving Repr, DecidableEq

namespace Patch

/-- A line edit writes the file only when it resolved a diagnostic. -/
def ofLineEdit (edit : LineEdit) (text : List Char) (diagnostics : List Diagnostic) : Patch :=
  let (buffer, fixed) := edit.apply (Buffer.ofText text) diagnostics
  ⟨fixed, if fixed.isEmpty then none else some buffer.contents, 0⟩

/-- The conversion looks at the whole text. When the text changes, all diagnostics count as
resolved. -/
def ofConversion (text : List Char) (diagnostics : List Diagnostic) : Patch :=
  let conversion := ImportConversion.ofText text
  if conversion.text = text then ⟨[], none, conversion.doubleAwaited⟩
  else ⟨diagnostics, some conversion.text, conversion.doubleAwaited⟩

end Patch

namespace Fixer

/-- The name under which progress is told. -/
def name : Fixer → String
  | unusedVariables => "unused vars"
  | requireImports => "require imports"
  | unusedParameters => "unused params"

def patch : Fixer → List Char → List Diagnostic → Patch
  | unusedVariables => Patch.ofLineEdit LineEdit.blankDeclaration
  | requireImports => Patch.ofConversion
  | unusedParameters => Patch.ofLineEdit LineEdit.prefixParameter

end Fixer

end LintRepair
