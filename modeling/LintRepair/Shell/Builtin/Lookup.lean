/-
This file finds commands and directories.
-/

import LintRepair.Shell.Place
import LintRepair.Shell.Quotation
import LintRepair.Shell.Reader
import LintRepair.Shell.Reply

namespace LintRepair.Shell.Builtin

/-- The commands of the shell that no function replaces are special. -/
def names : List Octets :=
  Reading.specialCommands ++
    (["alias", "bg", "cd", "chdir", "command", "echo", "false", "fg", "getopts", "hash", "jobs",
        "kill", "printf", "pwd", "read", "test", "[", "true", "type", "ulimit", "umask", "unalias",
        "wait"].map String.toList)

def isBuiltin (name : Octets) : Bool :=
  names.contains name

def isSpecial (name : Octets) : Bool :=
  Reading.specialCommands.contains name

/-! Programs. -/

/-- The directories in which programs are looked for. -/
def searchPath (state : State) : List Octets :=
  match state.value? "PATH".toList with
  | none => []
  | some path => Text.separate ':' path

def standardPath : List Octets :=
  ["/usr/sbin", "/usr/bin", "/sbin", "/bin"].map String.toList

def pathIn (directory name : Octets) : Octets :=
  if directory.isEmpty then name else directory ++ '/' :: name

/-- The path of a program that is found in one of the directories. Otherwise the error is the last one
that was not about a missing file. -/
def search (name : Octets) : FileError → List Octets → Step (Except FileError (Octets × Location))
  | error, [] => return .error error
  | error, directory :: directories => do
    let path := pathIn directory name
    match ← Step.target path with
    | .ok (.program location) => return .ok (path, location)
    | .ok _ => search name .permissionDenied directories
    | .error .notFound | .error .notDirectory => search name error directories
    | .error error => search name error directories

/-- A name with a slash is a path. -/
def program (directories : List Octets) (name : Octets) :
    Step (Except FileError (Octets × Location)) := do
  if name.contains '/' then
    match ← Step.target name with
    | .ok (.program location) => return .ok (name, location)
    | .ok _ => return .error .permissionDenied
    | .error error => return .error error
  else search name .notFound directories

/-- The words for a program that cannot be started. -/
def programError (error : FileError) : String :=
  match error with
  | .notFound | .notDirectory => "not found"
  | error => errorText error

/-- A program that was found stays known. -/
def remember (name path : Octets) : Step Unit :=
  modify fun state =>
    if name.contains '/' || (state.knownPrograms.lookup name).isSome then state
    else { state with knownPrograms := (name, path) :: state.knownPrograms }

/-! Descriptions. -/

/-- What a name stands for, as a sentence or as a command. -/
def describe (isSentence : Bool) (directories : List Octets) (name : Octets) : Step Reply := do
  let state ← get
  let say := fun (sentence : String) (text : Octets) =>
    ({ output := (if isSentence then name ++ sentence.toList ++ text else text) ++ ['\n'] } : Reply)
  let plain := fun (sentence : String) =>
    ({ output := name ++ (if isSentence then sentence.toList else []) ++ ['\n'] } : Reply)
  if Reading.reservedWords.contains name then return plain " is a shell keyword"
  else
    match state.aliases.lookup name with
    | some value =>
      if isSentence then return say " is an alias for " value
      else return { output := "alias ".toList ++ name ++ '=' :: quoted value ++ ['\n'] }
    | none =>
      if (state.functions.lookup name).isSome then return plain " is a shell function"
      else if isSpecial name then return plain " is a special shell builtin"
      else if isBuiltin name then return plain " is a shell builtin"
      else
        let isKnown := (state.knownPrograms.lookup name).isSome
        let found ←
          if name.contains '/' then
            match ← Step.target name with
            | .ok _ => pure (some name)
            | .error _ => pure none
          else
            match ← program directories name with
            | .ok (path, _) => pure (some path)
            | .error _ => pure none
        match found with
        | some path =>
          remember name path
          return say (if isKnown then " is a tracked alias for " else " is ") path
        | none =>
          return { output := if isSentence then name ++ ": not found\n".toList else [], status := 127 }

def describeAll (directories : List Octets) : List Octets → Step Reply
  | [] => return {}
  | name :: names => do
    let own ← describe true directories name
    let rest ← describeAll directories names
    let status := if rest.status = 0 then own.status else rest.status
    return { output := own.output ++ rest.output, status }

/-- The command that only tells what its argument stands for. -/
def commandDescription (arguments : List Octets) : Step Reply := do
  let (given, names) ← options "pvV" arguments
  let asks := fun (letter : Char) => given.any fun entry => entry.1 = letter
  let state ← get
  let directories := if asks 'p' then standardPath else searchPath state
  match names with
  | [] => return {}
  | name :: _ =>
    if asks 'v' || asks 'V' then describe (asks 'V') directories name else return {}

/-- Programs become known, or the known ones are told. -/
def hashNames : List Octets → Step Nat
  | [] => return 0
  | name :: names => do
    let state ← get
    let isFound ←
      if isBuiltin name || (state.functions.lookup name).isSome then pure true
      else
        match ← program (searchPath state) name with
        | .ok (path, _) =>
          remember name path
          pure true
        | .error error =>
          Step.complain (name ++ ": ".toList ++ (programError error).toList)
          pure false
    let status ← hashNames names
    return if isFound then status else 1

def hash (arguments : List Octets) : Step Reply := do
  let (given, names) ← options "r" arguments
  if !given.isEmpty then
    modify fun state => { state with knownPrograms := [] }
    return {}
  else
    match names with
    | [] =>
      return { output := (← get).knownPrograms.flatMap fun (_, path) => path ++ ['\n'] }
    | names => return { status := ← hashNames names }

/-! Directories. -/

/-- The working directory changes, and two variables with it. -/
def enter (location : Location) : Step Unit := do
  let assignExported := fun (name : String) (value : Octets) => do
    Step.assign name.toList value
    modify fun state =>
      let old := (state.variableOf? name.toList).getD {}
      state.putVariable name.toList (some { old with isExported := true })
  assignExported "OLDPWD" (octetsOf (pathText (← get).directory))
  modify fun state => { state with directory := location }
  assignExported "PWD" (octetsOf (pathText location))

/-- Where a path leads if only its spelling is looked at. -/
def spelledLocation (start : Location) (path : Octets) : Location :=
  let parts := (pathOf path).parts
  let start := if path.head? = some '/' then [] else start
  parts.foldl (fun location part =>
    match Path.component? part with
    | some (.name name) => location ++ [String.ofList name]
    | some .parent => location.dropLast
    | _ => location) start

/-- The directory that a path leads to, by its spelling unless links are to be followed. -/
def directory? (followsLinks : Bool) (path : Octets) : Step (Option Location) := do
  let state ← get
  let location? :=
    if followsLinks then (state.files.resolveFrom state.directory (pathOf path)).toOption
    else some (spelledLocation state.directory path)
  return location?.filter fun location => kind? state.files location = some .directory

/-- The paths that are tried for a directory, and whether a found one is told. A path that begins with
a slash or a dot as its first part is only tried as it is. -/
def directoryPaths (state : State) (path : Octets) : List (Octets × Bool) :=
  let first := path.takeWhile (· != '/')
  if path.head? = some '/' || first = ['.'] || first = ['.', '.'] then [(path, false)]
  else
    let around := ((state.value? "CDPATH".toList).map (Text.separate ':')).getD []
    around.map (fun directory => (pathIn directory path, !directory.isEmpty)) ++ [(path, false)]

def changeDirectory (arguments : List Octets) : Step Reply := do
  let (given, names) ← options "LP" arguments
  let followsLinks := given.getLast?.map Prod.fst = some 'P'
  let state ← get
  let name := names.head?.getD ((state.value? "HOME".toList).getD [])
  let isBack := name = ['-']
  let path := if isBack then (state.value? "OLDPWD".toList).getD [] else name
  let path := if path.isEmpty then ['.'] else path
  let rec enterFirst : List (Octets × Bool) → Step Reply
    | [] => Step.fail ("can't cd to ".toList ++ path)
    | (path, isTold) :: paths => do
      match ← directory? followsLinks path with
      | some location =>
        enter location
        return { output := if isBack || isTold then octetsOf (pathText location) ++ ['\n'] else [] }
      | none => enterFirst paths
  enterFirst (directoryPaths state path)

def printDirectory (arguments : List Octets) : Step Reply := do
  let _ ← options "LP" arguments
  return { output := octetsOf (pathText (← get).directory) ++ ['\n'] }

/-! Limits. -/

/-- Three digits of rights for the owner, the group and all others. -/
def octalMask (mask : Nat) : Octets :=
  let digits := Nat.toDigits 8 mask
  List.replicate (4 - digits.length) '0' ++ digits ++ ['\n']

def rights (value : Nat) : Octets :=
  (if value / 4 % 2 = 1 then ['r'] else []) ++ (if value / 2 % 2 = 1 then ['w'] else []) ++
    (if value % 2 = 1 then ['x'] else [])

def wordMask (mask : Nat) : Octets :=
  let kept := 511 - mask
  "u=".toList ++ rights (kept / 64) ++ ",g=".toList ++ rights (kept / 8 % 8) ++ ",o=".toList ++
    rights (kept % 8) ++ ['\n']

def umask (arguments : List Octets) : Step Reply := do
  let (given, names) ← options "S" arguments
  match names with
  | [] =>
    let mask := (← get).mask
    return { output := if given.isEmpty then octalMask mask else wordMask mask }
  | argument :: _ =>
    if (argument.head?.map Char.isDigit).getD false then
      if argument.all fun digit => '0' ≤ digit && digit ≤ '7' then
        modify fun state => { state with mask := ofDigits 8 (digitsOf 8 argument).1 % 512 }
        return {}
      else Step.fail ("Illegal number: ".toList ++ argument)
    else if argument.all "ugoa+-=rwxXst,".toList.contains then return {}
    else Step.fail ("Illegal mode: ".toList ++ argument)

def times : Reply where
  output := "0m0.000000s 0m0.000000s\n0m0.000000s 0m0.000000s\n".toList

end LintRepair.Shell.Builtin
