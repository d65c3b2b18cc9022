/-
This file makes files that are missing.
-/

import LintRepair.Shell.Utility.Cat

namespace LintRepair.Shell.Utility

namespace Touch

def optionTable : OptionTable where
  letters :=
    [⟨'a', false⟩, ⟨'c', false⟩, ⟨'d', true⟩, ⟨'f', false⟩, ⟨'h', false⟩, ⟨'m', false⟩, ⟨'r', true⟩,
      ⟨'t', true⟩]
  names :=
    [⟨"time", 'W', true⟩, ⟨"no-create", 'c', false⟩, ⟨"date", 'd', true⟩,
      ⟨"reference", 'r', true⟩, ⟨"no-dereference", 'h', false⟩, ⟨"help", 'H', false⟩,
      ⟨"version", 'V', false⟩]

/-- Digits for a month, a day, an hour and a minute, possibly with a year before them and seconds
behind them. -/
def isStamp (text : Octets) : Bool :=
  let digits := text.takeWhile Char.isDigit
  let isBehind :=
    match text.drop digits.length with
    | [] => true
    | ['.', tens, ones] => tens.isDigit && ones.isDigit
    | _ => false
  [8, 10, 12].contains digits.length && isBehind

/-- A date has digits or is a known word. -/
def isDate (text : Octets) : Bool :=
  text.any Char.isDigit ||
    ["", "now", "today", "yesterday", "tomorrow", "noon", "midnight"].any fun word =>
      (text.dropWhile isSpace).map Char.toLower = word.toList

end Touch

/-- The year at the start of a stamp or a date, if it has one. -/
def Touch.year? (text : Octets) : Option Nat :=
  let digits := text.takeWhile Char.isDigit
  match digits.length with
  | 4 | 8 | 12 => some (Text.numeralValue (digits.take 4))
  | 10 => some (2000 + Text.numeralValue (digits.take 2))
  | _ => none

/-- The age that the options ask for. A year is earlier than now or later. -/
def Touch.age (given : GivenOptions) : Step Int := do
  let wanted := given.options.find? fun option => ['d', 'r', 't'].contains option.1
  match wanted with
  | some ('r', path) =>
    match ← Step.target path with
    | .ok target => Step.age target
    | .error _ => return 1
  | some (_, text) =>
    match Touch.year? text with
    | some year => return if year < 2026 then -1 else 2
    | none => return 1
  | none => return 1

/-- How files are touched. -/
structure Touching where
  creates : Bool
  followsLinks : Bool
  age : Option Int

/-- A missing file is made unless that is not wanted. -/
def touchOperand (name : Octets) (touching : Touching) (operand : Octets) : Step Bool := do
  let fail := fun (action : String) (message : String) => do
    tell name (action.toList ++ ' ' :: markedName operand ++ ": ".toList ++ message.toList)
    return false
  let succeed := fun (target : Target) => do
    touching.age.forM fun age => Step.setAge target age
    return true
  if operand = ['-'] then
    match ← Step.openFile? 1 with
    | some (_, file) => succeed file.target
    | none => fail "setting times of" "Bad file descriptor"
  else if touching.creates && touching.followsLinks then
    match ← Step.createdTarget operand with
    | .ok target => succeed target
    | .error error =>
      match ← Step.target operand with
      | .ok target => succeed target
      | .error inner =>
        if error = .isDirectory then fail "setting times of" (errorText inner)
        else fail "cannot touch" (errorText error)
  else
    match ← Step.target operand with
    | .ok target => succeed target
    | .error error =>
      if error = .notFound && !touching.creates then return true
      else fail "setting times of" (errorText error)

def touchOperands (name : Octets) (touching : Touching) : List Octets → Step Nat
  | [] => return 0
  | operand :: operands => do
    let isDone ← touchOperand name touching operand
    let status ← touchOperands name touching operands
    return if isDone then status else 1

/-- What is wrong with the times that are asked for. -/
def timesError (given : GivenOptions) : Step (Option Octets) := do
  for (letter, argument) in given.options do
    if letter = 't' && !Touch.isStamp argument then
      return some ("invalid date format ".toList ++ shownMark argument)
  for (letter, argument) in given.options do
    if letter = 'r' then
      match ← Step.target argument with
      | .ok _ => pure ()
      | .error error =>
        return some ("failed to get attributes of ".toList ++ markedName argument ++ ": ".toList ++
          (errorText error).toList)
    if letter = 'd' && !Touch.isDate argument then
      return some ("invalid date format ".toList ++ shownMark argument)
  return none
where
  shownMark (text : Octets) : Octets :=
    '\'' :: text ++ ['\'']

def touchHelp (name : Octets) : Octets :=
  "Usage: ".toList ++ name ++
    " [OPTION]... FILE...\nUpdate the access and modification times of each FILE to the current time.\n".toList

def touchVersion : Octets :=
  "touch (GNU coreutils) 9.4\n".toList

def touch (name : Octets) (arguments : List Octets) : Step Nat := do
  let given := Touch.optionTable.given arguments
  match firstEnding given, given.error with
  | some letter, _ =>
    let _ ← Step.write 1 (if letter = 'H' then touchHelp name else touchVersion)
    return 0
  | none, some message =>
    tellUsage name message
    return 1
  | none, none =>
    let letters := given.options.map Prod.fst
    match ← timesError given with
    | some message =>
      tell name message
      return 1
    | none =>
      if letters.contains 't' && (letters.contains 'd' || letters.contains 'r') then
        tellUsage name "cannot specify times from more than one source".toList
        return 1
      else if given.others.isEmpty then
        tellUsage name "missing file operand".toList
        return 1
      else
        let changesAge := letters.contains 'm' || !letters.contains 'a'
        let age ← Touch.age given
        let touching : Touching :=
          { creates := !letters.contains 'c'
            followsLinks := !letters.contains 'h'
            age := if changesAge then some age else none }
        touchOperands name touching given.others

end LintRepair.Shell.Utility
