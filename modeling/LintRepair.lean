import LintRepair.Program
import LintRepair.Shell.Command
import LintRepair.Proofs.Unicode.CharacterClass
import LintRepair.Proofs.Text.Pieces
import LintRepair.Proofs.Text.Reader
import LintRepair.Proofs.Text.Span
import LintRepair.Proofs.Text.Absence
import LintRepair.Proofs.Buffer
import LintRepair.Proofs.Buffer.Delimited
import LintRepair.Proofs.Buffer.Assignment
import LintRepair.Proofs.Diagnostic.LineOrder
import LintRepair.Proofs.Diagnostic.FileGroup
import LintRepair.Proofs.FileTree.Update
import LintRepair.Proofs.FileTree.Resolution
import LintRepair.Proofs.Fix.LineEdit
import LintRepair.Proofs.Fix.Removal
import LintRepair.Proofs.Fix.Parameter
import LintRepair.Proofs.Fix.Pass
import LintRepair.Proofs.Fix.RequireImport
import LintRepair.Proofs.Fix.DoubleAwait
import LintRepair.Proofs.Fix.RequireCall
import LintRepair.Proofs.Fix.Seam
import LintRepair.Proofs.Fix.Declared
import LintRepair.Proofs.Fix.RequireGone
import LintRepair.Proofs.Fix.Fixer
import LintRepair.Proofs.Repair.FixFile
import LintRepair.Proofs.Repair.Removal
import LintRepair.Proofs.Repair.Warning
import LintRepair.Proofs.Repair.Groups
import LintRepair.Proofs.Repair.Distinct
import LintRepair.Proofs.Repair.Separate
import LintRepair.Proofs.Repair.Lint
import LintRepair.Proofs.Repair.Transcript
import LintRepair.Proofs.Repair.Parameters
import LintRepair.Proofs.Repair.LintStop
import LintRepair.Proofs.Repair.ParametersStop
import LintRepair.Proofs.Repair.Interruption
import LintRepair.Proofs.Diagnostic.Reordered
import LintRepair.Proofs.Repair.Reordered
import LintRepair.Proofs.LintReport.Grammar
import LintRepair.Proofs.LintReport.Value
import LintRepair.Proofs.LintReport.ReadBack
import LintRepair.Proofs.LintReport.Step
import LintRepair.Proofs.LintReport.Truncation
import LintRepair.Proofs.Fix.Declaration
import LintRepair.Proofs.Fix.Statement
import LintRepair.Proofs.Fix.ParameterPosition
import LintRepair.Proofs.Fix.Identifier
import LintRepair.Proofs.CompilerOutput.Lines
import LintRepair.Proofs.CompilerOutput.Message
import LintRepair.Proofs.Fix.Renaming
import LintRepair.Proofs.Fix.Keyword
import LintRepair.Proofs.Diagnostic.PathOrder
import LintRepair.Proofs.CompilerOutput.Malformed
import LintRepair.Proofs.Repair.Credit
import LintRepair.Proofs.Toml.Grammar
import LintRepair.Proofs.Toml.QuotedText
import LintRepair.Proofs.Toml.Line
import LintRepair.Proofs.Toml.Statement
import LintRepair.Proofs.Toml.Document
import LintRepair.Proofs.Toml.Writing
import LintRepair.Proofs.Settings.Section
import LintRepair.Proofs.Settings.ReadBack
