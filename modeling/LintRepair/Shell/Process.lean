/-
This file runs texts as scripts and runs scripts apart.
-/

import LintRepair.Shell.Reader
import LintRepair.Shell.Redirection
import LintRepair.Shell.Signal

namespace LintRepair.Shell

/-- Whether a failure of the commands is looked at, and whether the process ends behind them. -/
structure Mode where
  isTested : Bool := false
  isLast : Bool := false

/-- How scripts are run. -/
abbrev Run := Mode → Script → Step Unit

/-- The lines of a text are read and run one after the other. Every round passes a line. The text of
a file is shown while it is read if the shell asks for that. -/
def runLines (run : Run) (mode : Mode) (isShown : Bool) : Nat → Octets → Nat → Bool → Step Unit
  | 0, _, _, _ => return
  | rounds + 1, text, number, hasRun => do
    match Reading.line? (← get).aliases text number with
    | .error error =>
      modify fun state => { state with line := error.line }
      Step.fail error.message
    | .ok none => unless hasRun do Step.setStatus 0
    | .ok (some line) =>
      if isShown && (← get).hasFlag 'v' then
        Step.writeError (text.take (text.length - line.behind.length))
      match line.script with
      | none => runLines run mode isShown rounds line.behind line.number hasRun
      | some script =>
        run mode script
        runLines run mode isShown rounds line.behind line.number true

def runText (run : Run) (isTested : Bool) (text : Octets) : Step Unit :=
  runLines run { isTested } false (text.length + 1) text 1 false

def runFile (run : Run) (text : Octets) : Step Unit :=
  runLines run {} true (text.length + 1) text 1 false

/-- The actions for signals that have come are run. The status is then as before. -/
def runTraps (run : Run) : Step Unit := do
  let state ← get
  unless state.pendingTraps.isEmpty do
    let status := state.trapStatus.getD state.status
    set { state with pendingTraps := [], trapStatus := some status }
    for signal in List.range signalNames.length do
      if state.pendingTraps.contains signal then
        match (← get).traps.lookup signal with
        | none => pure ()
        | some action =>
          runText run false action
          Step.setStatus status
    modify fun inner => { inner with trapStatus := state.trapStatus }

/-- Whether any signal has an action. -/
def State.hasTraps (state : State) : Bool :=
  state.traps.any fun entry => !entry.2.isEmpty

/-- The status of a process that ends, and the signal that has killed it. The action for its end is run
first. -/
def finish (run : Run) (result : Except Interruption Unit) : Step (Nat × Option Nat) := do
  match result with
  | .error (.killed signal) => return (128 + signal, some signal)
  | _ =>
    let state ← get
    match state.traps.lookup 0 with
    | none => return (state.status % 256, none)
    | some action =>
      let traps := state.traps.filter fun entry => entry.1 != 0
      set { state with traps, trapStatus := some state.status }
      match ← Step.attempt (runText run false action) with
      | .error (.killed signal) => return (128 + signal, some signal)
      | .error .exited | .error .failed => return ((← get).status % 256, none)
      | _ => return (state.status % 256, none)

/-- The number, the status and the signal of a process. -/
structure Ended where
  number : Nat
  status : Nat
  signal : Option Nat

/-- A process runs to its end while the running one waits. -/
def apart (run : Run) (action : Step Unit) : Step Ended := do
  let outer ← get
  let number := outer.processCount + 1
  set { outer with
    processCount := number
    ownNumber := number
    ancestors := outer.ownNumber :: outer.ancestors
    traps := outer.traps.filter fun entry => entry.2.isEmpty
    pendingTraps := []
    trapStatus := none
    finished := [] }
  let result ← Step.attempt action
  let (status, signal) ← finish run result
  modify outer.rejoin
  return ⟨number, status, signal⟩

/-- The end of a process by a signal is told. -/
def tellEnd (ended : Ended) : Step Unit :=
  match ended.signal.bind signalMessage? with
  | some message => Step.writeError (message ++ ['\n'])
  | none => return

/-- A process in the foreground gives the status. -/
def await (run : Run) (action : Step Unit) : Step Unit := do
  let ended ← apart run action
  tellEnd ended
  Step.setStatus ended.status
  Step.receiveWaiting

/-- The output of a script that runs apart. -/
def capture (run : Run) : Capture := fun script => do
  match script with
  | .nothing =>
    modify fun state => { state with substitutionStatus := 0 }
    return []
  | _ =>
    let target ← Step.addPipe []
    let number ← Step.addFile { target, isWritable := true }
    let ended ← apart run do
      Step.setDescriptor 1 (some number)
      run { isLast := true } script
    tellEnd ended
    modify fun state => { state with substitutionStatus := ended.status }
    Step.receiveWaiting
    return (Step.contentFrom (← get) target 0).filter (· != '\x00')

end LintRepair.Shell
