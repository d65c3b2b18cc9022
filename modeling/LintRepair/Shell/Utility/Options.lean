/-
This file reads the options of programs, which may stand among their other arguments.
-/

import LintRepair.Shell.Octets

namespace LintRepair.Shell.Utility

/-- The letter of an option and whether an argument belongs to it. -/
structure LetterOption where
  letter : Char
  takesArgument : Bool := false

/-- The long name of an option, the letter that it stands for, and whether an argument belongs to
it. -/
structure LongOption where
  name : String
  letter : Char
  takesArgument : Bool := false

/-- The options that a program knows. -/
structure OptionTable where
  letters : List LetterOption
  names : List LongOption

/-- The options that were given with their arguments, and the other arguments. Reading stops at an
error. -/
structure GivenOptions where
  options : List (Char × Octets) := []
  others : List Octets := []
  error : Option Octets := none

def GivenOptions.withOption (given : GivenOptions) (letter : Char) (argument : Octets) :
    GivenOptions :=
  { given with options := (letter, argument) :: given.options }

namespace OptionTable

def failed (message : Octets) : GivenOptions :=
  { error := some message }

/-- The long options whose names begin with a text. A whole name counts alone. -/
def candidates (table : OptionTable) (text : Octets) : List LongOption :=
  match table.names.find? fun option => option.name.toList = text with
  | some option => [option]
  | none => table.names.filter fun option => text.isPrefixOf option.name.toList

/-- Options that all mean the same are not ambiguous. -/
def isAmbiguous : List LongOption → Bool
  | [] => false
  | first :: others => others.any fun option => option.letter != first.letter

/-- Every round passes an argument or a letter. The second text holds the letters ahead in an
argument. -/
def read (table : OptionTable) : Nat → Octets → List Octets → GivenOptions
  | 0, _, _ => {}
  | rounds + 1, letter :: letters, arguments =>
    match table.letters.find? fun option => option.letter = letter with
    | none => failed ("invalid option -- '".toList ++ [letter, '\''])
    | some option =>
      if option.takesArgument then
        match letters, arguments with
        | [], [] => failed ("option requires an argument -- '".toList ++ [letter, '\''])
        | [], argument :: arguments =>
          (table.read rounds [] arguments).withOption letter argument
        | argument, arguments => (table.read rounds [] arguments).withOption letter argument
      else (table.read rounds letters arguments).withOption letter []
  | _, [], [] => {}
  | rounds + 1, [], argument :: arguments =>
    match argument with
    | ['-', '-'] => { others := arguments }
    | '-' :: '-' :: text =>
      let name := text.takeWhile (· != '=')
      let value := text.drop name.length
      let shown := "option '--".toList ++ name ++ ['\'']
      match table.candidates name with
      | [] => failed ("unrecognized option '--".toList ++ text ++ ['\''])
      | option :: others =>
        if isAmbiguous (option :: others) then
          let names := (option :: others).flatMap fun option =>
            " '--".toList ++ option.name.toList ++ ['\'']
          failed ("option '--".toList ++ text ++ "' is ambiguous; possibilities:".toList ++ names)
        else
          let shown := if others.isEmpty then "option '--".toList ++ option.name.toList ++ ['\'']
            else shown
          if option.takesArgument then
            match value, arguments with
            | '=' :: value, arguments =>
              (table.read rounds [] arguments).withOption option.letter value
            | _, value :: arguments =>
              (table.read rounds [] arguments).withOption option.letter value
            | _, [] => failed (shown ++ " requires an argument".toList)
          else if value.isEmpty then
            (table.read rounds [] arguments).withOption option.letter []
          else failed (shown ++ " doesn't allow an argument".toList)
    | '-' :: letter :: letters => table.read rounds (letter :: letters) arguments
    | argument =>
      let given := table.read rounds [] arguments
      { given with others := argument :: given.others }

/-- The options and the other arguments. -/
def given (table : OptionTable) (arguments : List Octets) : GivenOptions :=
  table.read (arguments.flatten.length + arguments.length + 1) [] arguments

end OptionTable

end LintRepair.Shell.Utility
