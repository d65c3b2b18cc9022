/-
This file holds the lines in which a repair tells its progress.
-/

import LintRepair.Diagnostic.Basic
import LintRepair.Repair.Summary

namespace LintRepair

inductive Notice where
  | banner
  | found (count : Nat)
  | fixing (fixer : String) (path : Path)
  | rechecking
  | remaining (summary : LintSummary)
  | prefixed (diagnostic : Diagnostic)
  | total (count : Nat)
deriving Repr, DecidableEq

namespace Notice

/-- A green check mark for terminals. -/
def checkMark : String := "\x1b[32m✓\x1b[0m"

/-- The text of a notice with its line ends. Of a path only the file name is shown, unless the path
does not end in a name. -/
def text : Notice → String
  | banner => "Fixing ESLint errors systematically...\n"
  | found count => "Found " ++ toString count ++ " error violations\n"
  | fixing fixer path =>
    "Fixing " ++ fixer ++ " in " ++ path.fileName?.getD path.spelling ++ "...\n"
  | rechecking => checkMark ++ " Fixes applied. Checking remaining errors...\n"
  | remaining summary =>
    "Remaining errors: " ++ toString summary.remaining ++ "\n" ++
      match summary.reducedBy? with
      | none => ""
      | some reduced => checkMark ++ " Reduced errors by " ++ toString reduced ++ "\n"
  | prefixed diagnostic =>
    "Fixed: " ++ diagnostic.file.spelling ++ ":" ++ toString diagnostic.line ++
      " - prefixed '" ++ diagnostic.symbol.getD "" ++ "' with underscore\n"
  | total count => "\nTotal fixes applied: " ++ toString count ++ "\n"

/-- The text of several notices, one after the other. -/
def transcript (notices : List Notice) : String :=
  String.join (notices.map text)

end Notice

end LintRepair
