/-
This file holds what an analysis tool reports about one place of a file.
-/

import LintRepair.Path

namespace LintRepair

inductive Severity where
  | error
  | warning
deriving Repr, DecidableEq

/-- Only level two is an error. -/
def Severity.ofLevel (level : Nat) : Severity :=
  if level = 2 then .error else .warning

/-- A diagnostic about one place. Lines count from one; line zero says that the tool reported no
line. The symbol is the identifier that the diagnostic is about, if the tool names one. -/
structure Diagnostic where
  file : Path
  line : Nat
  column : Option Nat
  rule : String
  message : String
  symbol : Option String
deriving Repr, DecidableEq, Inhabited

namespace Diagnostic

/-- The diagnostics reported under one rule, in their order. -/
def underRule (rule : String) (diagnostics : List Diagnostic) : List Diagnostic :=
  diagnostics.filter fun diagnostic => diagnostic.rule == rule

end Diagnostic

end LintRepair
