/-
This file asks the lint command for its report.
-/

import LintRepair.LintReport.Reader
import LintRepair.Repair.Lint
import LintRepair.Text.LossyDecoding

namespace LintRepair

/-- How a system runs a command. There is an error when it cannot be started, and otherwise there is
what it writes. In both cases files may change. -/
abbrev Launch := Command → FileTree → Except FileError (List UInt8) × FileTree

/-- The report is what the command writes, whatever its status is. -/
def Command.collect (launch : Launch) (command : Command) : Collect := fun files =>
  let (result, files) := launch command files
  match result with
  | .error error => (.error (.unstartable command.line error), files)
  | .ok output =>
    match LintReport.diagnostics (Text.decodeLossily output) with
    | .error failure => (.error (.unreadable failure), files)
    | .ok diagnostics => (.ok diagnostics, files)

/-- The command of the settings is run twice. -/
def Settings.source (launch : Launch) (settings : Settings) : Source :=
  ⟨settings.command.collect launch, settings.command.collect launch⟩

end LintRepair
