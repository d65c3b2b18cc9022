/-
This file starts the programs that scripts call.
-/

import LintRepair.Shell.Builtin.Control
import LintRepair.Shell.Builtin.Lookup
import LintRepair.Shell.Builtin.Variable
import LintRepair.Shell.Utility.Printf
import LintRepair.Shell.Utility.Test
import LintRepair.Shell.Utility.Touch

namespace LintRepair.Shell

/-! Shells. -/

/-- The variables that a new shell has whether it is given them or not. -/
def usualVariables (state : State) : List (Octets × Octets) :=
  [("IFS".toList, [' ', '\t', '\n']), ("OPTIND".toList, ['1']), ("PS1".toList, ['#', ' ']),
    ("PS2".toList, ['>', ' ']), ("PS4".toList, ['+', ' ']),
    ("PPID".toList, decimal ((state.ancestors.head?).getD 1))]

/-- The variables that a program is given. -/
def environment (state : State) : List (Octets × Variable) :=
  (state.assigned.filter fun entry => entry.2.isExported && entry.2.value.isSome).map
    fun (name, given) => (name, { value := given.value, isExported := true })

/-- A shell that has just been started in the running process. -/
def State.restarted (state : State) (name : Octets) : State :=
  let given := environment state
  let usual := (usualVariables state).filter fun entry =>
    !(["PS1", "PS2", "PS4"].map String.toList).contains entry.1 || (given.lookup entry.1).isNone
  let kept := given.filter fun entry => (usual.lookup entry.1).isNone
  let path := octetsOf (pathText state.directory)
  let assigned :=
    kept ++ usual.map fun (name, value) => (name, { value := some value : Variable })
  let fresh : State :=
    { files := state.files
      ages := state.ages
      openFiles := state.openFiles
      pipes := state.pipes
      waitingSignals := state.waitingSignals
      processCount := state.processCount
      directory := state.directory
      descriptors := state.descriptors
      assigned
      traps := state.traps.filter fun entry => entry.2.isEmpty
      scriptName := name
      line := 0
      ownNumber := state.ownNumber
      shellNumber := state.ownNumber
      ancestors := state.ancestors
      mask := state.mask }
  fresh.putVariable "PWD".toList (some { value := some path, isExported := true })

/-- All that can be read of a descriptor. -/
def readAll (descriptor : Nat) : Step Octets := do
  match ← Step.openFile? descriptor with
  | none => return []
  | some (number, file) =>
    if !file.isReadable then return []
    else
      let text ← Step.peek file
      Step.advance number file text.length
      return text

/-- The text of a script file. -/
def scriptText (path : Octets) : Step Octets := do
  match ← Step.openInput path with
  | .error error => Step.failOpening .input path (Step.openingError .input error)
  | .ok number =>
    match (← get).openFiles[number]? with
    | some file => Step.peek file
    | none => return []

def runInput (run : Run) : Step Unit := do
  modify fun state => { state with line := 1 }
  runFile run (← readAll 0)

/-- A shell runs the text that it is given, a file or its input. -/
def runShell (run : Run) (name : Octets) (arguments : List Octets) : Step Unit := do
  modify fun state => state.restarted name
  let reading ← Builtin.flags true arguments
  let _ ← Step.write 1 reading.output
  if reading.commandAsked then
    match reading.others with
    | [] => Step.fail "-c requires an argument".toList
    | text :: others =>
      modify fun state =>
        { state with
          scriptName := others.head?.getD state.scriptName
          arguments := others.tail
          line := 1 }
      runText run false text
      if (← get).hasFlag 's' then runInput run
  else
    match (← get).hasFlag 's', reading.others with
    | false, path :: arguments =>
      let text ← scriptText path
      modify fun state => { state with scriptName := path, arguments, line := 1 }
      runFile run text
    | _, arguments =>
      modify fun state => (state.setFlag 's' true)
      modify fun state => { state with arguments }
      runInput run

/-! Other programs. -/

/-- The name of a program without the directories before it. -/
def lastPart (location : Location) : String :=
  location.getLast?.getD ""

/-- The status of a program other than a shell. -/
def runUtility (utility : String) (name : Octets) (arguments : List Octets) : Step Nat := do
  let reply : Reply ←
    match utility with
    | "cat" => pure { status := ← Utility.cat name arguments }
    | "touch" => pure { status := ← Utility.touch name arguments }
    | "echo" =>
      match arguments with
      | ['-', 'n'] :: arguments => pure { output := [' '].intercalate arguments }
      | _ => pure { output := [' '].intercalate arguments ++ ['\n'] }
    | "printf" => Utility.printf arguments
    | "test" | "[" => pure { status := ← Utility.testStatus utility.toList arguments }
    | "kill" => Builtin.kill arguments
    | "true" => pure {}
    | _ => pure { status := 1 }
  let _ ← Step.write 1 reply.output
  return reply.status

/-- A program takes the place of the running process. -/
def replace (run : Run) (location : Location) (name : Octets) (arguments : List Octets) :
    Step Unit := do
  if lastPart location = "sh" then
    let result ← Step.attempt (runShell run name arguments)
    let (status, signal) ← finish run result
    match signal with
    | some signal => throw (.killed signal)
    | none => Step.setStatus status
  else Step.setStatus (← runUtility (lastPart location) name arguments)
  modify fun state => { state with traps := [] }
  throw .exited

/-- A program runs while the running process waits. -/
def call (run : Run) (location : Location) (name : Octets) (arguments : List Octets) :
    Step Unit := do
  if lastPart location = "sh" then await run (runShell run name arguments)
  else Step.setStatus (← runUtility (lastPart location) name arguments)

end LintRepair.Shell
