/-
This file holds the commands that leave others, send signals and wait.
-/

import LintRepair.Shell.Process
import LintRepair.Shell.Quotation
import LintRepair.Shell.Reply

namespace LintRepair.Shell.Builtin

/-! Leaving. -/

/-- Loops are left or go on with their next round. Outside of loops nothing happens. -/
def leaveLoops (leaves : Bool) (arguments : List Octets) : Step Reply := do
  let count ←
    match arguments with
    | [] => pure 1
    | argument :: _ => do
      let count ← numberOf argument
      if count = 0 then Step.fail ("Illegal number: ".toList ++ argument) else pure count
  let depth := (← get).loopDepth
  if depth = 0 then return {}
  else
    Step.setStatus 0
    let count := min count depth
    throw (if leaves then .leftLoops count else .continuedLoop count)

def returnFrom (arguments : List Octets) : Step Reply := do
  match arguments with
  | [] => pure ()
  | argument :: _ => Step.setStatus (← numberOf argument)
  throw .returned

/-- Within an action for a signal the status before it counts. -/
def exit (arguments : List Octets) : Step Reply := do
  match arguments with
  | [] =>
    match (← get).trapStatus with
    | some status => Step.setStatus status
    | none => pure ()
  | argument :: _ => Step.setStatus ((← numberOf argument) % 256)
  throw .exited

/-! Signals. -/

def trapList (state : State) : Octets :=
  (List.range signalNames.length).flatMap fun signal =>
    match state.traps.lookup signal with
    | none => []
    | some action =>
      "trap -- ".toList ++ quoted action ++ ' ' :: ((signalNames[signal]?).getD []) ++ ['\n']

/-- An action is kept for signals, or the usual one is restored. -/
def setTraps (action : Option Octets) : List Octets → Step Reply
  | [] => return {}
  | name :: names => do
    match signal? 0 name with
    | none =>
      Step.writeError ("trap: ".toList ++ name ++ ": bad trap\n".toList)
      return { status := 1 }
    | some signal =>
      modify fun state =>
        let others := state.traps.filter fun entry => entry.1 != signal
        { state with
          traps :=
            match action with
            | none => others
            | some action => (signal, action) :: others }
      setTraps action names

def trap (arguments : List Octets) : Step Reply := do
  match (← options "" arguments).2 with
  | [] => return { output := trapList (← get) }
  | [name] => setTraps none [name]
  | action :: names => setTraps (if action = ['-'] then none else some action) names

def killUsage {Value : Type} : Step Value :=
  Step.fail
    ("Usage: kill [-s sigspec | -signum | -sigspec] [pid | job]... or\nkill -l [exitstatus]").toList

/-- The name of the signal that a number or a status stands for. -/
def signalName (argument : Octets) : Step Reply := do
  let number ← numberOf argument
  let signal := if 128 < number then number - 128 else number
  match (if signal = 0 then none else signalNames[signal]?) with
  | some name => return { output := name ++ ['\n'] }
  | none => Step.fail ("invalid signal number or exit status: ".toList ++ argument)

def signalList : Octets :=
  ['0', '\n'] ++ (signalNames.drop 1).flatMap fun name => name ++ ['\n']

/-- A signal is sent to processes. -/
def sendAll (signal : Nat) : List Octets → Step Nat
  | [] => return 0
  | process :: processes => do
    let isSent ←
      match process with
      | '%' :: _ => Step.fail ("No such job: ".toList ++ process)
      | '-' :: number =>
        let _ ← numberOf number
        pure false
      | _ => Step.send signal (← numberOf process)
    unless isSent do Step.complain "No such process\n".toList
    let status ← sendAll signal processes
    return if isSent then status else 1

def kill (arguments : List Octets) : Step Reply := do
  match arguments with
  | [] => killUsage
  | first :: rest =>
    let given : Option Nat :=
      match first with
      | '-' :: text => signal? 1 text
      | _ => none
    match given with
    | some signal => if rest.isEmpty then killUsage else return { status := ← sendAll signal rest }
    | none =>
      let (letters, others) ←
        if first.head? = some '-' then options "ls:" arguments else pure ([], arguments)
      let lists := letters.any fun entry => entry.1 = 'l'
      let signal ← letters.foldlM
        (fun (signal : Option Nat) (entry : Char × Octets) =>
          if entry.1 = 's' then
            match signal? 1 entry.2 with
            | some signal => pure (some signal)
            | none => Step.fail ("invalid signal number or name: ".toList ++ entry.2)
          else pure signal)
        none
      if lists then
        match others with
        | [] => return { output := signalList }
        | argument :: _ => if signal.isSome then killUsage else signalName argument
      else if others.isEmpty then killUsage
      else return { status := ← sendAll (signal.getD 15) others }

/-! Waiting. -/

/-- The status of a process in the background, which has ended. -/
def waitFor (argument : Octets) : Step Nat := do
  let state ← get
  let found : Option (Nat × Nat × Option Nat) ←
    match argument with
    | '%' :: _ => pure state.finished.head?
    | _ =>
      let number ← numberOf argument
      pure (state.finished.find? fun entry => entry.1 = number)
  match found with
  | some (number, status, signal) =>
    tellEnd ⟨number, status, signal⟩
    return status
  | none => return 127

def wait (arguments : List Octets) : Step Reply := do
  match (← options "" arguments).2 with
  | [] =>
    modify fun state => { state with finished := [] }
    return {}
  | arguments =>
    let statuses ← arguments.mapM waitFor
    return { status := statuses.getLast?.getD 0 }

end LintRepair.Shell.Builtin
