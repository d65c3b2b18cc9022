/-
This file runs the whole program: the words of the command line choose a repair, which runs over the
files of a system.
-/

import LintRepair.CommandLine.Arguments
import LintRepair.Repair.LintCommand
import LintRepair.Repair.Parameters
import LintRepair.Settings.File

namespace LintRepair.Program

inductive Failure where
  | settings (error : Settings.LoadError)
  | run (error : RunError)
deriving Repr, DecidableEq

def Failure.message : Failure → String
  | settings error => error.message
  | run error => error.message

/-- How the program ends. -/
inductive Ending where
  | success
  | misused (error : CommandLine.UsageError)
  | failure (reason : Failure)
deriving Repr, DecidableEq

def Ending.exitCode : Ending → Nat
  | success => 0
  | misused _ | failure _ => 2

/-- What the program leaves: the files, the text written, the warnings, and how it ended. -/
structure Outcome where
  files : FileTree
  output : String
  warnings : List Warning
  ending : Ending

/-- The outcome of a repair, which keeps what was done before an error. -/
def repair {Result : Type} (action : Run Result) (files : FileTree) : Outcome :=
  let (result, progress) := action.run (Progress.start files)
  { files := progress.files
    output := Notice.transcript progress.notices
    warnings := progress.warnings
    ending :=
      match result with
      | .ok _ => .success
      | .error error => .failure (.run error) }

/-- A source directory given on the command line wins over the settings. -/
def lint (launch : Launch) (configFile : String) (sourceDirectory : Option String)
    (files : FileTree) : Outcome :=
  match Settings.load files ⟨configFile⟩ with
  | .error error => ⟨files, "", [], .failure (.settings error)⟩
  | .ok settings =>
    let settings :=
      { settings with sourceDirectory := sourceDirectory.getD settings.sourceDirectory }
    repair (Run.lint settings (settings.source launch)) files

/-- Only the parameter repair reads the standard input, and only the lint repair runs a command. -/
def run (launch : Launch) (arguments : List String) (input : Except FileError (List UInt8))
    (files : FileTree) : Outcome :=
  match CommandLine.read arguments with
  | .error (.help topic) => ⟨files, topic.text, [], .success⟩
  | .error (.usage error) => ⟨files, "", [], .misused error⟩
  | .ok (.lint configFile sourceDirectory) => lint launch configFile sourceDirectory files
  | .ok .parameters => repair (Run.parametersOfInput input) files

end LintRepair.Program
