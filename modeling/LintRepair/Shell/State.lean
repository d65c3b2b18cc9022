/-
This file holds what a running shell knows and how it stops.
-/

import LintRepair.Shell.Syntax
import LintRepair.Shell.System
import LintRepair.Text.Numeral

namespace LintRepair.Shell

/-- The words for an error, without its number. -/
def errorText : FileError → String
  | .notFound => "No such file or directory"
  | .permissionDenied => "Permission denied"
  | .notDirectory => "Not a directory"
  | .isDirectory => "Is a directory"
  | .noSpace => "No space left on device"
  | .readOnlySystem => "Read-only file system"
  | .nameTooLong => "File name too long"
  | .tooManyLinks => "Too many levels of symbolic links"
  | .nulInPath | .nulInCommand | .malformedText => "Invalid argument"
  | .other wording => wording

/-! Open files. -/

/-- What bytes are read from and written to. -/
inductive Target where
  | file (location : Location)
  | pipe (number : Nat)
  | null
  | directory (location : Location)
  | program (location : Location)
deriving DecidableEq

/-- An opened target. Copied descriptors share the place up to which it has been read or written. -/
structure OpenFile where
  target : Target
  place : Nat := 0
  isReadable : Bool := false
  isWritable : Bool := false
  appends : Bool := false

/-! Variables. -/

/-- A variable may be marked without having a value. -/
structure Variable where
  value : Option Octets := none
  isExported : Bool := false
  isReadOnly : Bool := false

/-! The state. -/

/-- Why commands are left before their end. Behind `failed` stands an error that has been told. -/
inductive Interruption where
  | leftLoops (count : Nat)
  | continuedLoop (count : Nat)
  | returned
  | exited
  | failed
  | killed (signal : Nat)
deriving DecidableEq

/-- What all processes share, and what belongs to the running one. Signals wait for processes that
do not run. A file that was changed since the start has an age above zero. -/
structure State where
  files : FileTree
  ages : List (Location × Int) := []
  openFiles : Array OpenFile := #[]
  pipes : Array Octets := #[]
  waitingSignals : List (Nat × Nat) := []
  processCount : Nat := 1000
  directory : Location := []
  descriptors : List (Nat × Nat) := []
  assigned : List (Octets × Variable) := []
  localScopes : List (List (Octets × Option Variable)) := []
  functions : List (Octets × Script) := []
  aliases : List (Octets × Octets) := []
  flags : List Char := []
  traps : List (Nat × Octets) := []
  pendingTraps : List Nat := []
  trapStatus : Option Nat := none
  scriptName : Octets := "sh".toList
  arguments : List Octets := []
  commandName : Option Octets := none
  line : Nat := 1
  status : Nat := 0
  substitutionStatus : Nat := 0
  loopDepth : Nat := 0
  callDepth : Nat := 0
  ownNumber : Nat := 1000
  shellNumber : Nat := 1000
  ancestors : List Nat := []
  backgroundNumber : Option Nat := none
  finished : List (Nat × Nat × Option Nat) := []
  optionPlace : Option Nat := none
  mask : Nat := 18
  knownPrograms : List (Octets × Octets) := []

abbrev Step := ExceptT Interruption (StateM State)

namespace State

/-- The state behind a process that ran apart: what is shared stays, all else is as before. -/
def rejoin (state inner : State) : State :=
  { state with
    files := inner.files
    ages := inner.ages
    openFiles := inner.openFiles
    pipes := inner.pipes
    waitingSignals := inner.waitingSignals
    processCount := inner.processCount }

/-- The state in which a file or a directory has an age. The older an age, the lower it is. -/
def setAge (state : State) (location : Location) (age : Int) : State :=
  { state with ages := (location, age) :: state.ages.filter fun entry => entry.1 != location }

/-- The state with another content of a file. A new file also changes the directory around it. -/
def putFile (state : State) (location : Location) (content : List UInt8) : State :=
  let changed := { state with files := state.files.put location (.file content) }
  let dated := changed.setAge location 1
  if (state.files.entryAt? location).isSome then dated else dated.setAge location.dropLast 1

def hasFlag (state : State) (flag : Char) : Bool :=
  state.flags.contains flag

def setFlag (state : State) (flag : Char) (value : Bool) : State :=
  let others := state.flags.filter (· != flag)
  { state with flags := if value then flag :: others else others }

def variableOf? (state : State) (name : Octets) : Option Variable :=
  state.assigned.lookup name

/-- The value of a variable that has one. -/
def value? (state : State) (name : Octets) : Option Octets :=
  (state.variableOf? name).bind Variable.value

def putVariable (state : State) (name : Octets) (new : Option Variable) : State :=
  let others := state.assigned.filter fun entry => entry.1 != name
  { state with
    assigned :=
      match new with
      | none => others
      | some entry => (name, entry) :: others }

end State

namespace Step

/-- An action whose interruption is looked at. -/
def attempt {Value : Type} (action : Step Value) : Step (Except Interruption Value) :=
  fun state =>
    let (result, state) := action.run state
    (.ok result, state)

/-! Reading and writing. -/

/-- A new open file, by its number. -/
def addFile (file : OpenFile) : Step Nat := do
  let number := (← get).openFiles.size
  modify fun state => { state with openFiles := state.openFiles.push file }
  return number

def openFile? (descriptor : Nat) : Step (Option (Nat × OpenFile)) := do
  let state ← get
  match state.descriptors.lookup descriptor with
  | none => return none
  | some number => return (state.openFiles[number]?).map fun file => (number, file)

def setPlace (number place : Nat) : Step Unit :=
  modify fun state =>
    { state with openFiles := state.openFiles.modify number fun file => { file with place } }

/-- The bytes of a target from a place on. -/
def contentFrom (state : State) (target : Target) (place : Nat) : Octets :=
  match target with
  | .file location =>
    match state.files.entryAt? location with
    | some (.file content _) => octetsOfBytes (content.drop place)
    | _ => []
  | .pipe number => (state.pipes[number]?).getD []
  | _ => []

/-- The bytes ahead on an open file. -/
def peek (file : OpenFile) : Step Octets := do
  return contentFrom (← get) file.target file.place

/-- Bytes that were looked at count as read. -/
def advance (number : Nat) (file : OpenFile) (count : Nat) : Step Unit :=
  match file.target with
  | .pipe pipe =>
    modify fun state => { state with pipes := state.pipes.modify pipe fun bytes => bytes.drop count }
  | _ => setPlace number (file.place + count)

/-- The bytes of a file after others were written at a place. -/
def overwritten (content : List UInt8) (place : Nat) (bytes : List UInt8) : List UInt8 :=
  let before := content.take place
  before ++ List.replicate (place - before.length) 0 ++ bytes ++ content.drop (place + bytes.length)

/-- Whether bytes could be written to a descriptor. -/
def write (descriptor : Nat) (octets : Octets) : Step Bool := do
  match ← openFile? descriptor with
  | none => return octets.isEmpty
  | some (number, file) =>
    if !file.isWritable then return octets.isEmpty
    else
      match file.target with
      | .null => return true
      | .directory _ | .program _ => return false
      | .pipe pipe =>
        modify fun state =>
          { state with pipes := state.pipes.modify pipe fun bytes => bytes ++ octets }
        return true
      | .file location =>
        let state ← get
        match state.files.entryAt? location with
        | some (.file content _) =>
          let place := if file.appends then content.length else file.place
          let content := overwritten content place (bytesOf octets)
          unless octets.isEmpty do set (state.putFile location content)
          setPlace number (place + octets.length)
          return true
        | _ => return false

def writeError (message : Octets) : Step Unit := do
  let _ ← write 2 message

/-- An error is told with the name of the script, the line and the name of the command. -/
def complain (message : Octets) : Step Unit := do
  let state ← get
  let command :=
    match state.commandName with
    | none => []
    | some name => name ++ ": ".toList
  writeError (state.scriptName ++ ": ".toList ++ decimal state.line ++ ": ".toList ++ command ++
    message ++ ['\n'])

def setStatus (status : Nat) : Step Unit :=
  modify fun state => { state with status }

/-- An error that ends the shell, or only the command where a command may fail. -/
def fail {Value : Type} (message : Octets) : Step Value := do
  complain message
  setStatus 2
  throw .failed

/-! Variables. -/

/-- A variable gets a value, unless it is read only. -/
def assign (name value : Octets) : Step Unit := do
  let state ← get
  let old := (state.variableOf? name).getD {}
  if old.isReadOnly then fail (name ++ ": is read only".toList)
  else
    let isExported := old.isExported || state.hasFlag 'a'
    set (state.putVariable name (some { old with value := some value, isExported }))

def unset (name : Octets) : Step Unit := do
  let state ← get
  match state.variableOf? name with
  | none => return
  | some old =>
    if old.isReadOnly then fail (name ++ ": is read only".toList)
    else set (state.putVariable name none)

/-- The value of a variable is kept until the innermost scope ends. -/
def keepInScope (name : Octets) : Step Unit :=
  modify fun state =>
    match state.localScopes with
    | [] => state
    | scope :: scopes =>
      if (scope.lookup name).isSome then state
      else { state with localScopes := ((name, state.variableOf? name) :: scope) :: scopes }

/-- An action with a scope of its own. -/
def inScope {Value : Type} (action : Step Value) : Step Value := do
  modify fun state => { state with localScopes := [] :: state.localScopes }
  let result ← attempt action
  modify fun state =>
    match state.localScopes with
    | [] => state
    | scope :: scopes =>
      scope.foldl (fun state (name, old) => state.putVariable name old)
        { state with localScopes := scopes }
  ofExcept result
where
  ofExcept {Value : Type} : Except Interruption Value → Step Value
    | .ok value => return value
    | .error interruption => throw interruption

/-! Parameters. -/

/-- The letters of the flags that are set, in a fixed order. -/
def flagLetters (state : State) : Octets :=
  "pubaCEVvxsnmiIfe".toList.filter state.hasFlag

/-- The separator between joined arguments: the first one of the separators, or a space. -/
def joiner (state : State) : Octets :=
  match state.value? "IFS".toList with
  | none => [' ']
  | some separators => separators.take 1

/-- The arguments are joined by a separator or, where they stay apart, by a character that none of
them contains. -/
def joinedArguments (state : State) (isApart : Bool) : Octets :=
  (if isApart then ['\x00'] else joiner state).intercalate state.arguments

/-- The value of a parameter that has one. -/
def parameter? (state : State) (isApart : Bool) (name : Octets) : Option Octets :=
  match name with
  | ['@'] | ['*'] => some (joinedArguments state isApart)
  | ['#'] => some (decimal state.arguments.length)
  | ['?'] => some (decimal state.status)
  | ['$'] => some (decimal state.shellNumber)
  | ['!'] => state.backgroundNumber.map decimal
  | ['-'] => some (flagLetters state)
  | _ =>
    if !name.isEmpty && name.all Char.isDigit then
      match Text.numeralValue name with
      | 0 => some state.scriptName
      | position + 1 => state.arguments[position]?
    else state.value? name

end Step

end LintRepair.Shell
