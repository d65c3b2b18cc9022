/-
This file groups diagnostics by file. Two spellings of one path belong to one group.
-/

import LintRepair.Diagnostic.Basic

namespace LintRepair

/-- The diagnostics of one file under the spelling of the first of them. -/
structure FileGroup where
  path : Path
  diagnostics : List Diagnostic
deriving Repr, DecidableEq

namespace FileGroup

/-- A diagnostic joins the group of its path or opens a new one at its place in the path order. -/
def add (groups : List FileGroup) (diagnostic : Diagnostic) : List FileGroup :=
  match groups with
  | [] => [⟨diagnostic.file, [diagnostic]⟩]
  | group :: groups =>
    match compare diagnostic.file group.path with
    | .lt => ⟨diagnostic.file, [diagnostic]⟩ :: group :: groups
    | .eq => { group with diagnostics := group.diagnostics ++ [diagnostic] } :: groups
    | .gt => group :: add groups diagnostic

/-- The groups stand in path order and keep the order of the diagnostics within a file. -/
def ofDiagnostics (diagnostics : List Diagnostic) : List FileGroup :=
  diagnostics.foldl add []

end FileGroup

end LintRepair
