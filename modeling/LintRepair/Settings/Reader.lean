/-
This file reads the settings from a TOML document.
-/

import LintRepair.Settings.Basic
import LintRepair.Toml.Document

namespace LintRepair.Settings

open Toml

/-- The table that holds the settings. Other tables belong to other tools. -/
def sectionName : String := "lintpatch"

def text? : Value → Option String
  | .text value => some value
  | _ => none

def texts? : Value → Option (List String)
  | .array items => items.mapM text?
  | _ => none

/-- The settings with one of them changed. There are no keys but these four. -/
def withEntry (settings : Settings) (entry : String × Value) : Option Settings :=
  match entry with
  | ("source_dir", value) => do
    return { settings with sourceDirectory := ← text? value }
  | ("lint_command", value) => do
    return { settings with lintCommand := ← texts? value }
  | ("unused_vars_rule", value) => do
    return { settings with unusedVariableRule := ← text? value }
  | ("require_imports_rule", value) => do
    return { settings with requireImportRule := ← text? value }
  | _ => none

/-- The keys of the settings in the order in which an array lists their values. -/
def keys : List String :=
  ["source_dir", "lint_command", "unused_vars_rule", "require_imports_rule"]

/-- A section is a table, or an array of the leading values. -/
def ofSection? : Value → Option Settings
  | .table _ entries => entries.foldlM withEntry defaults
  | .array items => (keys.zip items).foldlM withEntry defaults
  | _ => none

/-- A command needs a word, so an empty list of words stands for the default command. -/
def withCommand (settings : Settings) : Settings :=
  if settings.lintCommand.isEmpty then { settings with lintCommand := defaults.lintCommand }
  else settings

/-- The settings of a document; without a section they are the defaults. -/
def ofText? (text : List Char) : Option Settings := do
  let root ← Toml.read? text
  match root.lookup sectionName with
  | none => return defaults
  | some value => (ofSection? value).map withCommand

end LintRepair.Settings
