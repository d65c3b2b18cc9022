/-
This file holds what a repair reads and changes while it runs, and how a single file is repaired.
-/

import LintRepair.FileTree.Resolution
import LintRepair.Fix.Fixer
import LintRepair.LintReport.Basic
import LintRepair.Repair.Notice

namespace LintRepair

/-- Why a source yields no diagnostics. -/
inductive SourceError where
  | unstartable (commandLine : String) (error : FileError)
  | unreadable (failure : LintReport.Failure)
  | interrupted (error : FileError)
deriving Repr, DecidableEq

def SourceError.message : SourceError → String
  | unstartable commandLine error =>
    "failed to run '" ++ commandLine ++ "': " ++ error.message
  | unreadable _ => "failed to parse lint report"
  | interrupted error => "failed to read diagnostics: " ++ error.message

/-- Why a repair stops. -/
inductive RunError where
  | source (error : SourceError)
  | read (path : Path) (error : FileError)
  | write (path : Path) (error : FileError)
deriving Repr, DecidableEq

def RunError.message : RunError → String
  | source error => error.message
  | read path error => "failed to read " ++ path.spelling ++ ": " ++ error.message
  | write path error => "failed to write " ++ path.spelling ++ ": " ++ error.message

/-- A warning that dynamic imports of a file are now awaited twice. -/
structure Warning where
  path : Path
  count : Nat
deriving Repr, DecidableEq

def Warning.message : String :=
  "already-awaited dynamic import wrapped in a second await"

/-- The files as they are now, the notices told and the warnings given so far. -/
structure Progress where
  files : FileTree
  notices : List Notice
  warnings : List Warning
deriving DecidableEq

def Progress.start (files : FileTree) : Progress :=
  ⟨files, [], []⟩

/-- A repair that may stop with an error. What was changed and told before stays. -/
abbrev Run := ExceptT RunError (StateM Progress)

namespace Run

def tell (notices : List Notice) : Run Unit :=
  modify fun progress => { progress with notices := progress.notices ++ notices }

def warn (warning : Warning) : Run Unit :=
  modify fun progress => { progress with warnings := progress.warnings ++ [warning] }

/-- The bytes of a text are written to a file. When that fails, what was written stays. -/
def writeText (path : Path) (location : Location) (text : String) : Run Unit := do
  let content := text.toUTF8.data.toList
  let error? := (← get).files.writeError? location content
  modify fun progress => { progress with files := progress.files.write location content }
  match error? with
  | none => return
  | some error => throw (.write path error)

/-- The file is read, patched, and written back if the patch has a new text. -/
def fixFile (fixer : Fixer) (path : Path) (diagnostics : List Diagnostic) :
    Run (List Diagnostic) := do
  match (← get).files.readText path with
  | .error error => throw (.read path error)
  | .ok (location, text) =>
    let patch := fixer.patch text.toList diagnostics
    if 0 < patch.doubleAwaited then warn ⟨path, patch.doubleAwaited⟩
    match patch.written with
    | none => pure ()
    | some written => writeText path location (String.ofList written)
    return patch.fixed

end Run

end LintRepair
