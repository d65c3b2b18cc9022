/-
This file says how the section of the settings can be written, with any of its keys in any order,
and which settings such a section stands for.
-/

import LintRepair.Proofs.Toml.Writing
import LintRepair.Settings.Reader

namespace LintRepair.Settings

open Toml

inductive Field where
  | sourceDirectory
  | lintCommand
  | unusedVariableRule
  | requireImportRule
deriving Repr, DecidableEq

def Field.key : Field → String
  | sourceDirectory => "source_dir"
  | lintCommand => "lint_command"
  | unusedVariableRule => "unused_vars_rule"
  | requireImportRule => "require_imports_rule"

/-- The value of a field as it is written. -/
def FieldText (settings : Settings) : Field → List Char → Prop
  | .sourceDirectory => StringText settings.sourceDirectory
  | .lintCommand => ArrayText settings.lintCommand
  | .unusedVariableRule => StringText settings.unusedVariableRule
  | .requireImportRule => StringText settings.requireImportRule

/-- The header of the section and the lines of the fields, in their order. -/
def SectionText (settings : Settings) (fields : List Field) (text : List Char) : Prop :=
  ∃ blank header lines, BlankLines blank ∧ HeaderText sectionName header ∧
    Lines (fun field => PairText field.key (settings.FieldText field)) fields lines ∧
    text = blank ++ (header ++ lines)

/-- The settings with the fields that are kept. The others have their defaults, and so has a command
without words. -/
def kept (settings : Settings) (fields : List Field) : Settings where
  sourceDirectory :=
    if .sourceDirectory ∈ fields then settings.sourceDirectory else defaults.sourceDirectory
  lintCommand :=
    if .lintCommand ∈ fields ∧ settings.lintCommand ≠ [] then settings.lintCommand
    else defaults.lintCommand
  unusedVariableRule :=
    if .unusedVariableRule ∈ fields then settings.unusedVariableRule
    else defaults.unusedVariableRule
  requireImportRule :=
    if .requireImportRule ∈ fields then settings.requireImportRule else defaults.requireImportRule

theorem fieldWritten (settings : Settings) (field : Field) :
    ∃ text, settings.FieldText field text := by
  cases field with
  | sourceDirectory => exact stringWritten settings.sourceDirectory
  | lintCommand => exact arrayWritten settings.lintCommand
  | unusedVariableRule => exact stringWritten settings.unusedVariableRule
  | requireImportRule => exact stringWritten settings.requireImportRule

theorem Field.isBare (field : Field) : KeyText field.key field.key.toList := by
  cases field <;> exact .bare (by decide) (by decide)

theorem sectionIsBare : KeyText sectionName sectionName.toList :=
  .bare (by decide) (by decide)

theorem sectionWritten (settings : Settings) (fields : List Field) :
    ∃ text, SectionText settings fields text := by
  have each : ∀ field ∈ fields,
      ∃ line, PairText field.key (settings.FieldText field) line := by
    intro field _
    obtain ⟨text, isValue⟩ := settings.fieldWritten field
    exact ⟨_, pairWritten field.isBare isValue⟩
  obtain ⟨lines, areLines⟩ := linesWritten each
  exact ⟨_, [], _, lines, .none, headerWritten sectionIsBare, areLines, rfl⟩

end LintRepair.Settings
