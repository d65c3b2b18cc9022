/-
This file holds the signals and sends them.
-/

import LintRepair.Shell.State

namespace LintRepair.Shell

/-- The signals by number. The first entry stands for the end of the shell. -/
def signalNames : List Octets :=
  (["EXIT", "HUP", "INT", "QUIT", "ILL", "TRAP", "ABRT", "BUS", "FPE", "KILL", "USR1", "SEGV",
      "USR2", "PIPE", "ALRM", "TERM", "16", "CHLD", "CONT", "STOP", "TSTP", "TTIN", "TTOU", "URG",
      "XCPU", "XFSZ", "VTALRM", "PROF", "WINCH", "IO", "PWR", "SYS", "32", "33", "RTMIN"].map
    String.toList) ++
    ((List.range 15).map fun place => "RTMIN+".toList ++ decimal (place + 1)) ++
    ((List.range 14).map fun place => "RTMAX-".toList ++ decimal (14 - place)) ++ ["RTMAX".toList]

/-- The name of a process's end by a signal. -/
def signalMessages : List (Nat × String) :=
  [(1, "Hangup"), (3, "Quit"), (4, "Illegal instruction"), (5, "Trace/breakpoint trap"),
    (6, "Aborted"), (7, "Bus error"), (8, "Floating point exception"), (9, "Killed"),
    (10, "User defined signal 1"), (11, "Segmentation fault"), (12, "User defined signal 2"),
    (14, "Alarm clock"), (15, "Terminated"), (16, "Stack fault"), (24, "CPU time limit exceeded"),
    (25, "File size limit exceeded"), (26, "Virtual timer expired"), (27, "Profiling timer expired"),
    (29, "I/O possible"), (30, "Power failure"), (31, "Bad system call")]

/-- Nothing is told of an interrupt and of a broken pipe. -/
def signalMessage? (signal : Nat) : Option Octets :=
  match signalMessages.lookup signal with
  | some message => some message.toList
  | none =>
    if 34 ≤ signal && signal ≤ 64 then some ("Real-time signal ".toList ++ decimal (signal - 34))
    else none

/-- Signals that end no process. -/
def harmlessSignals : List Nat :=
  [0, 17, 18, 19, 20, 21, 22, 23, 28]

def lowerCase (text : Octets) : Octets :=
  text.map Char.toLower

/-- The number of a signal that is given by its number or its name. -/
def signal? (lowest : Nat) (text : Octets) : Option Nat :=
  if !text.isEmpty && text.all Char.isDigit then
    let number := Text.numeralValue text
    if number < signalNames.length then some number else none
  else
    (signalNames.drop lowest).findIdx? (fun name => lowerCase name = lowerCase text) |>.map
      (· + lowest)

namespace Step

/-- A signal reaches the running process. A signal with a trap waits for the end of a command. -/
def receive (signal : Nat) : Step Unit := do
  let state ← get
  match (if signal = 9 then none else state.traps.lookup signal) with
  | some action =>
    unless action.isEmpty do
      set { state with pendingTraps := state.pendingTraps ++ [signal] }
  | none => unless harmlessSignals.contains signal do throw (.killed signal)

/-- A signal is sent to a process, if there is one. -/
def send (signal process : Nat) : Step Bool := do
  let state ← get
  if process = state.ownNumber then
    receive signal
    return true
  else if state.ancestors.contains process then
    set { state with waitingSignals := state.waitingSignals ++ [(process, signal)] }
    return true
  else return (state.finished.lookup process).isSome

/-- The signals that came while another process was running. -/
def receiveWaiting : Step Unit := do
  let state ← get
  let (own, others) := state.waitingSignals.partition fun entry => entry.1 = state.ownNumber
  set { state with waitingSignals := others }
  own.forM fun entry => receive entry.2

end Step

end LintRepair.Shell
