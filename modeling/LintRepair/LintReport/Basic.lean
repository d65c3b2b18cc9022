/-
This file holds the linter's report and the diagnostics that it stands for.
-/

import LintRepair.Diagnostic.Basic

namespace LintRepair.LintReport

/-- One message about a file. Fatal errors have no rule and may have no place. -/
structure Message where
  severity : Nat
  line : Option Nat
  column : Option Nat
  rule : Option String
  text : String
deriving Repr, DecidableEq

structure FileReport where
  path : Path
  messages : List Message
deriving Repr, DecidableEq

/-- Why a text is no report: it is no JSON, it stops too early, or a value does not have the
expected form. The first reason from the left counts. -/
inductive Failure where
  | malformed
  | truncated
  | mistyped
deriving Repr, DecidableEq

/-- A message is about a diagnostic when its severity is an error. -/
def Message.diagnostic? (path : Path) (message : Message) : Option Diagnostic :=
  match Severity.ofLevel message.severity with
  | .warning => none
  | .error => some {
      file := path
      line := message.line.getD 0
      column := message.column
      rule := message.rule.getD ""
      message := message.text
      symbol := none }

def FileReport.diagnostics (report : FileReport) : List Diagnostic :=
  report.messages.filterMap (Message.diagnostic? report.path)

end LintRepair.LintReport
