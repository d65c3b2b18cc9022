/-
This file holds the help texts of the command line.
-/

namespace LintRepair.CommandLine

inductive HelpTopic where
  | program
  | lint
  | parameters
  | help
deriving Repr, DecidableEq

namespace HelpTopic

def lines : HelpTopic → List String
  | program => [
      "Auto-remediate unused declarations, unused parameters and require() imports",
      "",
      "Usage: lintpatch <COMMAND>",
      "",
      "Commands:",
      "  lint    Run ESLint, remove unused declarations, convert require() imports, then re-check",
      "  params  Read `tsc` output from stdin and prefix unused parameters with an underscore",
      "  help    Print this message or the help of the given subcommand(s)",
      "",
      "Options:",
      "  -h, --help  Print help"]
  | lint => [
      "Run ESLint, remove unused declarations, convert require() imports, then re-check",
      "",
      "Usage: lintpatch lint [OPTIONS]",
      "",
      "Options:",
      "  -c, --config <CONFIG>          Path to lintpatch.toml config file (optional) " ++
        "[default: lintpatch.toml]",
      "  -s, --source-dir <SOURCE_DIR>  Source directory to lint, overriding the config file",
      "  -h, --help                     Print help"]
  | parameters => [
      "Read `tsc` output from stdin and prefix unused parameters with an underscore",
      "",
      "Usage: lintpatch params",
      "",
      "Options:",
      "  -h, --help  Print help"]
  | help => [
      "Print this message or the help of the given subcommand(s)",
      "",
      "Usage: lintpatch help [COMMAND]...",
      "",
      "Arguments:",
      "  [COMMAND]...  Print help for the subcommand(s)"]

/-- Every line ends with a line feed. -/
def text (topic : HelpTopic) : String :=
  String.join (topic.lines.map fun line => line ++ "\n")

end HelpTopic

end LintRepair.CommandLine
