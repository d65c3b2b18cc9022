/-
This file loads the settings from a file.
-/

import LintRepair.FileTree.Resolution
import LintRepair.Settings.Reader

namespace LintRepair.Settings

/-- Why settings cannot be loaded. -/
inductive LoadError where
  | unreadable (error : FileError)
  | malformed
deriving Repr, DecidableEq

def LoadError.message : LoadError → String
  | unreadable error => "failed to read config: " ++ error.message
  | malformed => "failed to parse config"

/-- The settings of a file. A missing file stands for the defaults; a file that is there but cannot
be read is an error. -/
def load (files : FileTree) (path : Path) : Except LoadError Settings :=
  match files.readText path with
  | .error .notFound => .ok defaults
  | .error error => .error (.unreadable error)
  | .ok (_, text) =>
    match ofText? text.toList with
    | some settings => .ok settings
    | none => .error .malformed

end LintRepair.Settings
