/-
This file holds the settings of a repair and the words of the lint command.
-/

namespace LintRepair

structure Settings where
  sourceDirectory : String := "src"
  lintCommand : List String := ["npx", "eslint"]
  unusedVariableRule : String := "@typescript-eslint/no-unused-vars"
  requireImportRule : String := "@typescript-eslint/no-require-imports"
deriving Repr, DecidableEq

/-- A program with its arguments. -/
structure Command where
  program : String
  arguments : List String
deriving Repr, DecidableEq

/-- The program and every argument, joined by single spaces and without quotation. -/
def Command.line (command : Command) : String :=
  " ".intercalate (command.program :: command.arguments)

namespace Settings

def defaults : Settings := {}

/-- The linter is told the directory and asked for a report that can be read back. Without any
command word the program is `npx`. -/
def command (settings : Settings) : Command where
  program := settings.lintCommand.head?.getD "npx"
  arguments := settings.lintCommand.tail ++ [settings.sourceDirectory, "--format=json"]

end Settings

end LintRepair
