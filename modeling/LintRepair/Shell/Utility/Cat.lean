/-
This file writes files one after the other.
-/

import LintRepair.Shell.Place
import LintRepair.Shell.Quotation
import LintRepair.Shell.Utility.Options

namespace LintRepair.Shell.Utility

namespace Cat

/-- The letters after the first one stand for options without a letter. -/
def optionTable : OptionTable where
  letters := "benstuvAET".toList.map fun letter => { letter }
  names :=
    [⟨"number-nonblank", 'b', false⟩, ⟨"number", 'n', false⟩, ⟨"squeeze-blank", 's', false⟩,
      ⟨"show-nonprinting", 'v', false⟩, ⟨"show-ends", 'E', false⟩, ⟨"show-tabs", 'T', false⟩,
      ⟨"show-all", 'A', false⟩, ⟨"help", 'H', false⟩, ⟨"version", 'V', false⟩]

/-- How lines are shown. -/
structure Style where
  numbersAll : Bool
  numbersFilled : Bool
  squeezes : Bool
  showsEnds : Bool
  showsTabs : Bool
  showsControls : Bool

def Style.ofLetters (letters : List Char) : Style where
  numbersAll := letters.contains 'n'
  numbersFilled := letters.contains 'b'
  squeezes := letters.contains 's'
  showsEnds := letters.any "AEe".toList.contains
  showsTabs := letters.any "ATt".toList.contains
  showsControls := letters.any "Aetv".toList.contains

def Style.isPlain (style : Style) : Bool :=
  !(style.numbersAll || style.numbersFilled || style.squeezes || style.showsEnds ||
    style.showsTabs || style.showsControls)

/-- The number of the last line, and how many line ends stand before the next character. Within a line
there are none. -/
structure Progress where
  number : Nat := 0
  lineEnds : Option Nat := some 0

def shownControl (octet : Char) : Octets :=
  let low := fun (code : Nat) =>
    if code < 32 then ['^', Char.ofNat (code + 64)]
    else if code = 127 then ['^', '?']
    else [Char.ofNat code]
  if octet.toNat < 128 then low octet.toNat
  else 'M' :: '-' :: low (octet.toNat - 128)

def shown (style : Style) (octet : Char) : Octets :=
  if octet = '\t' then if style.showsTabs then ['^', 'I'] else ['\t']
  else if style.showsControls then shownControl octet
  else [octet]

def lineNumber (number : Nat) : Octets :=
  let digits := decimal number
  List.replicate (6 - digits.length) ' ' ++ digits ++ ['\t']

/-- A text as its lines are shown. -/
def format (style : Style) : Progress → Octets → Octets × Progress
  | progress, [] => ([], progress)
  | progress, '\n' :: text =>
    let lineEnds := min 2 ((progress.lineEnds.map (· + 1)).getD 0)
    let isEmpty := 0 < lineEnds
    let isRepeated := 2 ≤ lineEnds
    if isRepeated && style.squeezes then
      format style { progress with lineEnds := some lineEnds } text
    else
      let isNumbered := isEmpty && style.numbersAll && !style.numbersFilled
      let number := if isNumbered then progress.number + 1 else progress.number
      let (rest, progress) := format style ⟨number, some lineEnds⟩ text
      ((if isNumbered then lineNumber number else []) ++ (if style.showsEnds then ['$'] else []) ++
        '\n' :: rest, progress)
  | progress, octet :: text =>
    let isNumbered := progress.lineEnds.isSome && (style.numbersAll || style.numbersFilled)
    let number := if isNumbered then progress.number + 1 else progress.number
    let isJoined := octet = '\r' && style.showsEnds && text.head? = some '\n'
    let (rest, progress) := format style ⟨number, none⟩ text
    ((if isNumbered then lineNumber number else []) ++
      (if isJoined then ['^', 'M'] else shown style octet) ++ rest, progress)

end Cat

/-- A message of a program with its name. -/
def tell (name message : Octets) : Step Unit :=
  Step.writeError (name ++ ": ".toList ++ message ++ ['\n'])

/-- An error in the options with a hint. -/
def tellUsage (name message : Octets) : Step Unit := do
  tell name message
  Step.writeError ("Try '".toList ++ name ++ " --help' for more information.\n".toList)

/-- Whether the output is a file that is also read and would never end. -/
def feedsItself (input : OpenFile) (output : OpenFile) : Step Bool := do
  match input.target with
  | .file _ =>
    if input.target = output.target then
      let length := (Step.contentFrom (← get) output.target 0).length
      return input.place < length
    else return false
  | _ => return false

/-- One operand is written. A dash stands for the input. -/
def catOperand (name : Octets) (style : Cat.Style) (progress : Cat.Progress) (operand : Octets) :
    Step (Bool × Cat.Progress) := do
  let opened : Except String Nat ←
    if operand = ['-'] then
      match ← Step.openFile? 0 with
      | some (number, _) => pure (.ok number)
      | none => pure (.error "Bad file descriptor")
    else
      match ← Step.openInput operand with
      | .ok number => pure (.ok number)
      | .error error => pure (.error (errorText error))
  match opened with
  | .error message =>
    tell name (shownName operand ++ ": ".toList ++ message.toList)
    return (false, progress)
  | .ok number =>
    match (← get).openFiles[number]?, ← Step.openFile? 1 with
    | some file, some (_, output) =>
      if ← feedsItself file output then
        tell name (shownName operand ++ ": input file is output file".toList)
        return (false, progress)
      else
        match file.target, file.isReadable with
        | .directory _, _ =>
          tell name (shownName operand ++ ": Is a directory".toList)
          return (false, progress)
        | _, false =>
          tell name (shownName operand ++ ": Bad file descriptor".toList)
          return (false, progress)
        | _, true =>
          let text ← Step.peek file
          Step.advance number file text.length
          let (shown, progress) :=
            if style.isPlain then (text, progress) else Cat.format style progress text
          if ← Step.write 1 shown then return (true, progress)
          else
            tell name "write error: Bad file descriptor".toList
            throw .exited
    | _, _ => return (false, progress)

/-- The operands are written in order, and the status says whether all could be. -/
def catOperands (name : Octets) (style : Cat.Style) :
    Cat.Progress → List Octets → Step Nat
  | _, [] => return 0
  | progress, operand :: operands => do
    let (isDone, progress) ← catOperand name style progress operand
    let status ← catOperands name style progress operands
    return if isDone then status else 1

def catHelp (name : Octets) : Octets :=
  "Usage: ".toList ++ name ++ " [OPTION]... [FILE]...\nConcatenate FILE(s) to standard output.\n".toList

def catVersion : Octets :=
  "cat (GNU coreutils) 9.4\n".toList

/-- The options that end a program, in the order in which they stand. -/
def firstEnding (given : GivenOptions) : Option Char :=
  (given.options.find? fun option => option.1 = 'H' || option.1 = 'V').map Prod.fst

def cat (name : Octets) (arguments : List Octets) : Step Nat := do
  let given := Cat.optionTable.given arguments
  match firstEnding given, given.error with
  | some letter, _ =>
    let _ ← Step.write 1 (if letter = 'H' then catHelp name else catVersion)
    return 0
  | none, some message =>
    tellUsage name message
    return 1
  | none, none =>
    if (← Step.openFile? 1).isNone then
      tell name "standard output: Bad file descriptor".toList
      return 1
    else
      let style := Cat.Style.ofLetters (given.options.map Prod.fst)
      let operands := if given.others.isEmpty then [['-']] else given.others
      let status ←
        match ← Step.attempt (catOperands name style {} operands) with
        | .ok status => pure status
        | .error .exited => pure 1
        | .error interruption => throw interruption
      if operands.contains ['-'] && (← Step.openFile? 0).isNone then
        tell name "closing standard input: Bad file descriptor".toList
        return 1
      else return status

end LintRepair.Shell.Utility
