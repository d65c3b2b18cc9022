/-
This file holds what commands of the shell have in common.
-/

import LintRepair.Shell.Integer
import LintRepair.Shell.State

namespace LintRepair.Shell

/-- What a command writes and its status. -/
structure Reply where
  output : Octets := []
  status : Nat := 0

/-- The options before the other arguments. A colon behind a letter says that an argument belongs to
it. Every round passes an argument or a letter. -/
def optionsWithin (letters : Octets) :
    Nat → Octets → List Octets → Step (List (Char × Octets) × List Octets)
  | 0, _, arguments => return ([], arguments)
  | rounds + 1, letter :: ahead, arguments => do
    let known := letters.dropWhile (· != letter)
    if known.isEmpty || letter = ':' then Step.fail ("Illegal option -".toList ++ [letter])
    else if known[1]? = some ':' then
      match ahead, arguments with
      | [], [] => Step.fail ("No arg for -".toList ++ [letter] ++ " option".toList)
      | [], argument :: arguments =>
        let (given, others) ← optionsWithin letters rounds [] arguments
        return ((letter, argument) :: given, others)
      | argument, arguments =>
        let (given, others) ← optionsWithin letters rounds [] arguments
        return ((letter, argument) :: given, others)
    else
      let (given, others) ← optionsWithin letters rounds ahead arguments
      return ((letter, []) :: given, others)
  | rounds + 1, [], arguments =>
    match arguments with
    | ['-', '-'] :: others => return ([], others)
    | ('-' :: letter :: ahead) :: others =>
      optionsWithin letters rounds (letter :: ahead) others
    | others => return ([], others)

def options (letters : String) (arguments : List Octets) :
    Step (List (Char × Octets) × List Octets) :=
  optionsWithin letters.toList (arguments.flatten.length + arguments.length + 1) [] arguments

/-- The number that an argument stands for. -/
def numberOf (argument : Octets) : Step Nat :=
  match plainNumber? argument with
  | some value => return value
  | none => Step.fail ("Illegal number: ".toList ++ argument)

end LintRepair.Shell
