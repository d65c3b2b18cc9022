/-
This file runs the lint repair: the linter's errors are collected, two fixers answer them file by
file, and the errors that remain are counted.
-/

import LintRepair.Diagnostic.FileGroup
import LintRepair.Repair.Run
import LintRepair.Settings.Basic

namespace LintRepair

/-- Collecting diagnostics may change files, since it may run a program. -/
abbrev Collect := FileTree → Except SourceError (List Diagnostic) × FileTree

/-- A source is asked twice, before the fixers run and after. -/
structure Source where
  initial : Collect
  recheck : Collect

/-- A source that gives two prepared reports and changes no file. -/
def Source.ofReports (initial recheck : Except SourceError (List Diagnostic)) : Source :=
  ⟨fun files => (initial, files), fun files => (recheck, files)⟩

namespace Run

def collect (collect : Collect) : Run (List Diagnostic) := do
  let (result, files) := collect (← get).files
  modify fun progress => { progress with files }
  match result with
  | .ok diagnostics => return diagnostics
  | .error error => throw (.source error)

/-- A fixer answers the diagnostics group by group. -/
def fixGroups (fixer : Fixer) : List FileGroup → Run (List Diagnostic)
  | [] => return []
  | group :: groups => do
    tell [.fixing fixer.name group.path]
    let fixed ← fixFile fixer group.path group.diagnostics
    return fixed ++ (← fixGroups fixer groups)

/-- The diagnostics under one rule are answered by one fixer. -/
def fixRule (fixer : Fixer) (rule : String) (diagnostics : List Diagnostic) :
    Run (List Diagnostic) :=
  fixGroups fixer (FileGroup.ofDiagnostics (Diagnostic.underRule rule diagnostics))

/-- Unused declarations are removed before `require` calls are converted. -/
def lint (settings : Settings) (source : Source) : Run LintSummary := do
  tell [.banner]
  let found ← collect source.initial
  tell [.found found.length]
  let removed ← fixRule .unusedVariables settings.unusedVariableRule found
  let converted ← fixRule .requireImports settings.requireImportRule found
  tell [.rechecking]
  let remaining ← collect source.recheck
  let summary : LintSummary :=
    ⟨found.length, removed.length + converted.length, remaining.length⟩
  tell [.remaining summary]
  return summary

end Run

end LintRepair
