/-
This file holds the counts of a lint repair.
-/

namespace LintRepair

/-- The errors of the first report, the diagnostics that the fixers resolved, and the errors of
the second report. -/
structure LintSummary where
  found : Nat
  fixed : Nat
  remaining : Nat
deriving Repr, DecidableEq

/-- How many errors fewer the second report has, if it has fewer. -/
def LintSummary.reducedBy? (summary : LintSummary) : Option Nat :=
  if summary.remaining < summary.found then some (summary.found - summary.remaining) else none

end LintRepair
