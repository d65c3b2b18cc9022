/-
This file runs the parameter repair on the type checker's output.
-/

import LintRepair.CompilerOutput
import LintRepair.Diagnostic.FileGroup
import LintRepair.Repair.Run

namespace LintRepair.Run

/-- The diagnostics of the output whose files exist. -/
def existingUnread (files : FileTree) (output : List UInt8) : List Diagnostic :=
  (CompilerOutput.diagnostics output).filter fun diagnostic => files.pathExists diagnostic.file

/-- Every group is answered, and its renamed parameters are told in the order of their lines. -/
def prefixGroups : List FileGroup → Run Nat
  | [] => return 0
  | group :: groups => do
    let fixed ← fixFile .unusedParameters group.path group.diagnostics
    tell ((Diagnostic.ascending fixed).map .prefixed)
    return fixed.length + (← prefixGroups groups)

/-- The number of parameters renamed. -/
def parameters (output : List UInt8) : Run Nat := do
  let diagnostics := existingUnread (← get).files output
  let total ← prefixGroups (FileGroup.ofDiagnostics diagnostics)
  tell [.total total]
  return total

/-- The output may break off with an error before its end. Then nothing is repaired. -/
def parametersOfInput (input : Except FileError (List UInt8)) : Run Nat :=
  match input with
  | .ok output => parameters output
  | .error error => throw (.source (.interrupted error))

end LintRepair.Run
