/-
This file carries out redirections.
-/

import LintRepair.Shell.Expansion
import LintRepair.Shell.Place

namespace LintRepair.Shell

/-- A redirection that is about to be carried out. A document is expanded only then. -/
inductive ReadyRedirection where
  | file (descriptor : Nat) (kind : RedirectionKind) (path : Octets)
  | copy (descriptor : Nat) (source : Option Nat)
  | document (descriptor : Nat) (text : Word)

/-- The descriptor to be copied; a dash closes the other one. -/
def copiedDescriptor (text : Octets) : Step (Option Nat) :=
  match text with
  | ['-'] => return none
  | [digit] =>
    if digit.isDigit then return some (digit.toNat - '0'.toNat)
    else Step.fail "Syntax error: Bad fd number".toList
  | _ => Step.fail "Syntax error: Bad fd number".toList

def Redirection.ready (capture : Capture) : Redirection → Step ReadyRedirection
  | file descriptor kind target => do
    return .file descriptor kind (← Word.text capture target)
  | copy descriptor source => do
    return .copy descriptor (← copiedDescriptor (← Word.text capture source))
  | document descriptor text => return .document descriptor text

namespace Step

def setDescriptor (descriptor : Nat) (number : Option Nat) : Step Unit :=
  modify fun state =>
    let others := state.descriptors.filter fun entry => entry.1 != descriptor
    { state with
      descriptors :=
        match number with
        | none => others
        | some number => (descriptor, number) :: others }

/-- Why a path could not be opened. -/
def openingError (kind : RedirectionKind) (error : FileError) : String :=
  match error with
  | .notFound | .notDirectory =>
    if kind = .input then "No such file" else "Directory nonexistent"
  | error => errorText error

def failOpening {Value : Type} (kind : RedirectionKind) (path : Octets) (message : String) :
    Step Value :=
  let action := if kind = .input then "cannot open " else "cannot create "
  fail (action.toList ++ path ++ ": ".toList ++ message.toList)

/-- The number of a new open file. Files that are there are kept if the shell asks for that. -/
def openPath (kind : RedirectionKind) (path : Octets) : Step Nat := do
  if kind = .output && (← get).hasFlag 'C' then
    match ← target path with
    | .ok (.file _) => failOpening kind path "File exists"
    | .ok (.directory _) => failOpening .input path (errorText .isDirectory)
    | _ => pure ()
  let opened ← if kind = .input then openInput path else openOutput kind path
  match opened with
  | .ok number => return number
  | .error error => failOpening kind path (openingError kind error)

/-- A new pipe that holds a text. -/
def addPipe (text : Octets) : Step Target := do
  let number := (← get).pipes.size
  modify fun state => { state with pipes := state.pipes.push text }
  return .pipe number

def redirect (capture : Capture) : ReadyRedirection → Step Unit
  | .file descriptor kind path => do
    let number ← openPath kind path
    setDescriptor descriptor (some number)
  | .copy descriptor none => setDescriptor descriptor none
  | .copy descriptor (some source) => do
    if source != descriptor then
      match (← get).descriptors.lookup source with
      | none => fail (decimal source ++ ": Bad file descriptor".toList)
      | some number => setDescriptor descriptor (some number)
  | .document descriptor word => do
    let text ← Word.documentText capture word
    let number ← addFile { target := ← addPipe text, isReadable := true }
    setDescriptor descriptor (some number)

/-- Whether all redirections could be carried out. -/
def redirectAll (capture : Capture) (redirections : List ReadyRedirection) : Step Bool := do
  match ← attempt (redirections.forM (redirect capture)) with
  | .ok () => return true
  | .error .failed => return false
  | .error interruption => throw interruption

/-- The descriptors are afterwards as before. -/
def keepingDescriptors {Value : Type} (action : Step Value) : Step Value := do
  let descriptors := (← get).descriptors
  let result ← attempt action
  modify fun state => { state with descriptors }
  match result with
  | .ok value => return value
  | .error interruption => throw interruption

end Step

end LintRepair.Shell
