/-
This file runs scripts.
-/

import LintRepair.Shell.Program

namespace LintRepair.Shell

/-! Commands. -/

/-- Words become fields until there are some. -/
def firstFields (capture : Capture) : List Octets → List Word → Step (List Octets × List Word)
  | [], word :: words => do firstFields capture (← Word.fields capture word) words
  | fields, words => return (fields, words)

/-- The fields of the name and the arguments of a command, and what is known of it. -/
structure Callee where
  fields : List Octets
  words : List Word
  skipsFunctions : Bool := false
  usesStandardPath : Bool := false

/-- The command behind the options of the word that skips functions. Without a command the word is one
itself. Every round passes an option. -/
def calleeBehind (capture : Capture) :
    Nat → List Octets → List Octets → List Word → Bool → Step (Callee × Bool)
  | 0, passed, fields, words, usesStandardPath => return (⟨passed ++ fields, words, true, usesStandardPath⟩, false)
  | rounds + 1, passed, fields, words, usesStandardPath => do
    let (fields, words) ← firstFields capture fields words
    match fields with
    | [] => return (⟨passed, words, true, usesStandardPath⟩, false)
    | ['-', '-'] :: rest =>
      let (rest, words) ← firstFields capture rest words
      if rest.isEmpty then return (⟨passed ++ [['-', '-']], words, true, usesStandardPath⟩, false)
      else return (⟨rest, words, true, usesStandardPath⟩, true)
    | ('-' :: letter :: letters) :: rest =>
      if (letter :: letters).all (· == 'p') then
        calleeBehind capture rounds (passed ++ [('-' :: letter :: letters)]) rest words true
      else return (⟨passed ++ fields, words, true, usesStandardPath⟩, false)
    | fields => return (⟨fields, words, true, usesStandardPath⟩, true)

/-- The command that is called in the end. Every round passes one word that skips functions. -/
def callee (capture : Capture) : Nat → Callee → Step Callee
  | 0, found => return found
  | rounds + 1, found => do
    let state ← get
    match found.fields with
    | name :: rest =>
      let isFunction := !found.skipsFunctions && (state.functions.lookup name).isSome
      if name = "command".toList && !isFunction then
        let (behind, isCall) ←
          calleeBehind capture (rest.length + found.words.length + 8) [name] rest found.words
            found.usesStandardPath
        if isCall then callee capture rounds behind
        else return { behind with skipsFunctions := found.skipsFunctions }
      else return found
    | [] => return found

/-- The fields of the other words. Behind some commands words that look like assignments are not
split. -/
def otherFields (capture : Capture) (declares : Bool) : List Word → Step (List Octets)
  | [] => return []
  | word :: words => do
    let own ←
      match (if declares then Reading.assignment? word else none) with
      | some (name, value) =>
        pure [name ++ '=' :: (← Word.assignedText capture value)]
      | none => Word.fields capture word
    return own ++ (← otherFields capture declares words)

def declaringNames : List Octets :=
  ["alias", "export", "local", "readonly"].map String.toList

/-- The largest number of functions that call each other. -/
def callLimit : Nat := 1000

/-- A function runs with its own arguments, and outside of the loops around its call. -/
def callFunction (run : Run) (mode : Mode) (body : Script) (arguments : List Octets) :
    Step Unit := do
  let outer ← get
  if callLimit ≤ outer.callDepth then
    let limit := decimal callLimit
    Step.fail ("Maximum function recursion depth (".toList ++ limit ++ ") reached".toList)
  set { outer with
    arguments, loopDepth := 0, callDepth := outer.callDepth + 1, optionPlace := none }
  let result ← Step.attempt (run { isTested := mode.isTested } body)
  modify fun inner =>
    { inner with
      arguments := outer.arguments
      loopDepth := outer.loopDepth
      callDepth := outer.callDepth
      optionPlace := outer.optionPlace }
  match result with
  | .ok () | .error .returned => return
  | .error interruption => throw interruption

/-- The commands of a file are run in this shell. -/
def runSourced (run : Run) (arguments : List Octets) : Step Reply := do
  match (← options "" arguments).2 with
  | [] => return {}
  | name :: _ =>
    let state ← get
    let path ←
      if name.contains '/' then pure name
      else
        let paths := (Builtin.searchPath state).map fun directory => Builtin.pathIn directory name
        let found ← paths.filterM fun path => do
          match ← Step.target path with
          | .ok (.file _) | .ok (.program _) => return true
          | _ => return false
        match found with
        | path :: _ => pure path
        | [] => Step.fail (name ++ ": not found".toList)
    let text ← scriptText path
    modify fun state => { state with commandName := some path }
    match ← Step.attempt (runFile run text) with
    | .ok () | .error .returned => return { status := (← get).status }
    | .error interruption => throw interruption

/-- A program takes the place of the shell. -/
def execute (run : Run) (arguments : List Octets) : Step Reply := do
  match arguments with
  | [] => return {}
  | name :: arguments =>
    match ← Builtin.program (Builtin.searchPath (← get)) name with
    | .ok (_, location) =>
      replace run location name arguments
      return {}
    | .error error =>
      Step.complain (name ++ ": ".toList ++ (Builtin.programError error).toList)
      Step.setStatus (if error = .permissionDenied then 126 else 127)
      throw .exited

/-- What a command of the shell itself does. -/
def builtinReply (run : Run) (mode : Mode) (name : Octets) (arguments : List Octets) :
    Step Reply :=
  match String.ofList name with
  | ":" | "true" => return {}
  | "false" => return { status := 1 }
  | "." => runSourced run arguments
  | "alias" => Builtin.aliasNames arguments
  | "bg" | "fg" => Step.fail "No current job".toList
  | "break" => Builtin.leaveLoops true arguments
  | "cd" | "chdir" => Builtin.changeDirectory arguments
  | "command" => Builtin.commandDescription arguments
  | "continue" => Builtin.leaveLoops false arguments
  | "echo" => return Utility.echo arguments
  | "eval" => do
    runText run mode.isTested ([' '].intercalate arguments)
    return { status := (← get).status }
  | "exec" => execute run arguments
  | "exit" => Builtin.exit arguments
  | "export" => Builtin.exportNames arguments
  | "getopts" => Builtin.getopts arguments
  | "hash" => Builtin.hash arguments
  | "jobs" => return {}
  | "kill" => Builtin.kill arguments
  | "local" => Builtin.localNames arguments
  | "printf" => Utility.printf arguments
  | "pwd" => Builtin.printDirectory arguments
  | "read" => Builtin.readLine arguments
  | "readonly" => Builtin.protectNames arguments
  | "return" => Builtin.returnFrom arguments
  | "set" => Builtin.setFlags arguments
  | "shift" => Builtin.shiftArguments arguments
  | "test" | "[" => do return { status := ← Utility.testStatus name arguments }
  | "times" => return Builtin.times
  | "trap" => Builtin.trap arguments
  | "type" => do
    Builtin.describeAll (Builtin.searchPath (← get)) (← options "" arguments).2
  | "ulimit" => return { output := "unlimited\n".toList }
  | "umask" => Builtin.umask arguments
  | "unalias" => Builtin.unaliasNames arguments
  | "unset" => Builtin.unsetNames arguments
  | _ => Builtin.wait arguments

/-- A failure ends the shell only if the command is special. -/
def callBuiltin (run : Run) (mode : Mode) (isSpecial : Bool) (name : Octets)
    (arguments : List Octets) : Step Unit := do
  let outer := (← get).commandName
  modify fun state => { state with commandName := some name }
  let result ← Step.attempt do
    let reply ← builtinReply run mode name arguments
    Step.setStatus reply.status
    unless ← Step.write 1 reply.output do
      Step.complain (name ++ ": I/O error".toList)
      Step.setStatus 1
  modify fun state => { state with commandName := outer }
  match result with
  | .ok () => return
  | .error .failed => if isSpecial then throw .failed else return
  | .error interruption => throw interruption

/-- A program is called by its name or its path. -/
def callProgram (run : Run) (mode : Mode) (usesStandardPath : Bool) (name : Octets)
    (arguments : List Octets) : Step Unit := do
  let state ← get
  let directories := if usesStandardPath then Builtin.standardPath else Builtin.searchPath state
  match ← Builtin.program directories name with
  | .ok (path, location) =>
    Builtin.remember name path
    if mode.isLast && !state.hasTraps then replace run location name arguments
    else call run location name arguments
  | .error error =>
    Step.complain (name ++ ": ".toList ++ (Builtin.programError error).toList)
    let isDenied := error = .permissionDenied && name.contains '/'
    Step.setStatus (if isDenied then 126 else 127)

/-- What a command with its arguments is. -/
inductive Called where
  | nothing
  | function (body : Script)
  | builtin (isSpecial : Bool)
  | program

def called (state : State) (found : Callee) : Called :=
  match found.fields with
  | [] => .nothing
  | name :: _ =>
    match (if found.skipsFunctions then none else state.functions.lookup name) with
    | some body => .function body
    | none =>
      if Builtin.isBuiltin name then
        .builtin (Builtin.isSpecial name && !found.skipsFunctions)
      else .program

/-- The words of a command are shown before it is run. -/
def trace (descriptors : List (Nat × Nat)) (words : List Octets) : Step Unit := do
  let state ← get
  if state.hasFlag 'x' then
    let mark := (state.value? "PS4".toList).getD []
    set { state with descriptors }
    Step.writeError (mark ++ [' '].intercalate words ++ ['\n'])
    modify fun traced => { traced with descriptors := state.descriptors }

/-- Assignments before a command last as long as it does, unless it is special or missing. -/
def assignAll (capture : Capture) (isTemporary isExported : Bool) :
    List (Octets × Word) → Step (List Octets)
  | [] => return []
  | (name, word) :: assignments => do
    let value ← Word.assignedText capture word
    if isTemporary then Step.keepInScope name
    Step.assign name value
    if isTemporary || isExported then
      modify fun state =>
        state.putVariable name
          (some { (state.variableOf? name).getD {} with isExported := true })
    return (name ++ '=' :: value) :: (← assignAll capture isTemporary isExported assignments)

def runSimple (run : Run) (mode : Mode) (line : Nat) (assignments : List (Octets × Word))
    (words : List Word) (redirections : List Redirection) : Step Unit := do
  let capture := capture run
  modify fun state => { state with line, substitutionStatus := 0 }
  let (first, others) ← firstFields capture [] words
  let found ← callee capture 8 { fields := first, words := others }
  let declares := (found.fields.head?.map declaringNames.contains).getD false
  let fields := found.fields ++ (← otherFields capture declares found.words)
  let command := called (← get) { found with fields }
  let isSpecial :=
    match command with
    | .builtin isSpecial => isSpecial
    | _ => false
  let isTemporary :=
    match command with
    | .nothing => false
    | _ => !isSpecial
  let isReplacing := fields.head? = some "exec".toList &&
    match command with
    | .builtin _ => true
    | _ => false
  let ready ← redirections.mapM (Redirection.ready capture)
  let outer := (← get).descriptors
  let action : Step Unit := do
    if ← Step.redirectAll capture ready then
      let assigned ←
        assignAll capture isTemporary (isReplacing && 1 < fields.length) assignments
      trace outer (assigned ++ fields)
      match command, fields with
      | .function body, _ :: arguments => callFunction run mode body arguments
      | .builtin isSpecial, name :: arguments => callBuiltin run mode isSpecial name arguments
      | .program, name :: arguments =>
        callProgram run mode found.usesStandardPath name arguments
      | _, _ => modify fun state => { state with status := state.substitutionStatus }
    else
      Step.setStatus 2
      if isSpecial then throw .failed
  let bounded := if isTemporary then Step.inScope action else action
  if isReplacing then bounded else Step.keepingDescriptors bounded

/-- A failure that is not looked at ends the shell if it asks for that. -/
def checkStatus (mode : Mode) : Step Unit := do
  let state ← get
  if state.status != 0 && !mode.isTested && state.hasFlag 'e' then throw .exited

/-! Loops. -/

/-- How a part of a loop has ended. -/
inductive Round where
  | complete
  | continued
  | left

/-- A part of a loop. Outer loops are left by interruptions that go on. -/
def round (action : Step Unit) : Step Round := do
  match ← Step.attempt action with
  | .ok () => return .complete
  | .error (.leftLoops (count + 2)) => throw (.leftLoops (count + 1))
  | .error (.leftLoops _) => return .left
  | .error (.continuedLoop (count + 2)) => throw (.continuedLoop (count + 1))
  | .error (.continuedLoop _) => return .continued
  | .error interruption => throw interruption

/-- Within a loop there is one loop more to be left. -/
def inLoop (action : Step Unit) : Step Unit := do
  let depth := (← get).loopDepth
  modify fun state => { state with loopDepth := depth + 1 }
  let result ← Step.attempt action
  modify fun state => { state with loopDepth := depth }
  match result with
  | .ok () => return
  | .error interruption => throw interruption

/-- The rounds of a loop with a test. The status is that of the last round. -/
def loopRounds (run : Run) (mode : Mode) (expected : Bool) (test body : Script) :
    Nat → Nat → Step Unit
  | 0, status => Step.setStatus status
  | rounds + 1, status => do
    match ← round (run { isTested := true } test) with
    | .left => Step.setStatus status
    | .continued => loopRounds run mode expected test body rounds status
    | .complete =>
      if ((← get).status == 0) == expected then
        match ← round (run { isTested := mode.isTested } body) with
        | .left => return
        | _ => loopRounds run mode expected test body rounds (← get).status
      else Step.setStatus status

/-- The body of a loop is run for every word. -/
def eachRound (run : Run) (mode : Mode) (name : Octets) (body : Script) :
    List Octets → Step Unit
  | [] => return
  | word :: words => do
    Step.assign name word
    match ← round (run { isTested := mode.isTested } body) with
    | .left => return
    | _ => eachRound run mode name body words

/-! Choices. -/

def matchesAny (capture : Capture) (text : Octets) : List Word → Step Bool
  | [] => return false
  | word :: words => do
    if (← Word.pattern capture word).isMatch text then return true
    else matchesAny capture text words

/-- The first case with a fitting pattern is run. -/
def runCases (run : Run) (mode : Mode) (text : Octets) :
    List (List Word × Option Script) → Step Unit
  | [] => Step.setStatus 0
  | (patterns, body) :: cases => do
    if ← matchesAny (capture run) text patterns then
      match body with
      | some script => run mode script
      | none => Step.setStatus 0
    else runCases run mode text cases

/-! Processes. -/

/-- Commands run one after the other, each with the output of the one before as its input. -/
def pipedCommands (run : Run) (mode : Mode) : Option Nat → List Script → Step (List Ended)
  | _, [] => return []
  | input, command :: commands => do
    let (output, next) ←
      match commands with
      | [] => pure (none, none)
      | _ => do
        let target ← Step.addPipe []
        let output ← Step.addFile { target, isWritable := true }
        let next ← Step.addFile { target, isReadable := true }
        pure (some output, some next)
    let ended ← apart run do
      if input.isSome then Step.setDescriptor 0 input
      if output.isSome then Step.setDescriptor 1 output
      run { isTested := mode.isTested, isLast := true } command
    return ended :: (← pipedCommands run mode next commands)

def runPipeline (run : Run) (mode : Mode) (commands : List Script) : Step Unit := do
  let ended ← pipedCommands run mode none commands
  ended.forM tellEnd
  Step.setStatus ((ended.getLast?.map Ended.status).getD 0)
  Step.receiveWaiting

/-- The commands in parentheses need no process of their own where the running one ends with them. -/
def runSubshell (run : Run) (mode : Mode) (line : Nat) (script : Script)
    (redirections : List Redirection) : Step Unit := do
  modify fun state => { state with line }
  let ready ← redirections.mapM (Redirection.ready (capture run))
  let action : Step Unit := do
    if ← Step.redirectAll (capture run) ready then run { isTested := mode.isTested, isLast := true } script
    else throw .failed
  if mode.isLast && !(← get).hasTraps then
    action
    throw .exited
  else await run action

/-- A process in the background has no input. -/
def runBackground (run : Run) (script : Script) : Step Unit := do
  let ended ← apart run do
    let number ← Step.addFile { target := .null, isReadable := true }
    Step.setDescriptor 0 (some number)
    run { isLast := true } script
  modify fun state =>
    { state with
      backgroundNumber := some ended.number
      finished := (ended.number, ended.status, ended.signal) :: state.finished
      status := 0 }
  Step.receiveWaiting

/-! Scripts. -/

/-- A redirected script, whose redirections may fail. -/
def runRedirected (run : Run) (mode : Mode) (line : Nat) (script : Script)
    (redirections : List Redirection) : Step Unit := do
  modify fun state => { state with line }
  let ready ← redirections.mapM (Redirection.ready (capture run))
  Step.keepingDescriptors do
    if ← Step.redirectAll (capture run) ready then run { isTested := mode.isTested } script
    else
      Step.setStatus 2
      checkStatus mode

/-- A script is run, while the scripts in it are run by the given function. -/
def runWith (run : Run) (rounds : Nat) (mode : Mode) (script : Script) : Step Unit :=
  match script with
  | .nothing => return
  | .simple line assignments words redirections => do
    runSimple run mode line assignments words redirections
    checkStatus mode
  | .redirected line script redirections => runRedirected run mode line script redirections
  | .sequence first second => do
    run { isTested := mode.isTested } first
    run mode second
  | .background script => runBackground run script
  | .both first second => do
    run { isTested := true } first
    if (← get).status = 0 then run mode second
  | .either first second => do
    run { isTested := true } first
    if (← get).status ≠ 0 then run mode second
  | .negation script => do
    run { isTested := true } script
    modify fun state => { state with status := if state.status = 0 then 1 else 0 }
  | .pipeline commands => do
    runPipeline run mode commands
    checkStatus mode
  | .conditional test yes no => do
    run { isTested := true } test
    if (← get).status = 0 then run mode yes
    else
      match no with
      | some no => run mode no
      | none => Step.setStatus 0
  | .loop expected test body => inLoop (loopRounds run mode expected test body rounds 0)
  | .each line name words body => do
    modify fun state => { state with line }
    let fields ← words.mapM (Word.fields (capture run))
    Step.setStatus 0
    inLoop (eachRound run mode name body fields.flatten)
  | .choice line word cases => do
    modify fun state => { state with line }
    let text ← Word.text (capture run) word
    runCases run mode text cases
  | .definition name body =>
    modify fun state =>
      { state with
        functions := (name, body) :: state.functions.filter fun entry => entry.1 != name
        status := 0 }
  | .subshell line script redirections => do
    runSubshell run mode line script redirections
    checkStatus mode

/-- No loop goes on for longer. -/
def roundLimit : Nat := 1000000

/-- A script is run unless it nests too deeply. -/
def runWithin : Nat → Run
  | 0, _, _ => throw (.killed 11)
  | depth + 1, mode, script => do
    unless (← get).hasFlag 'n' do
      runTraps (runWithin depth)
      runWith (runWithin depth) roundLimit mode script
      runTraps (runWithin depth)

/-- Scripts that nest more deeply are left. -/
def depthLimit : Nat := 10000

def run : Run :=
  runWithin depthLimit

end LintRepair.Shell
