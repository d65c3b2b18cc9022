/-
This file holds the commands that change variables, arguments and flags.
-/

import LintRepair.Shell.Expansion
import LintRepair.Shell.Quotation
import LintRepair.Shell.Reply

namespace LintRepair.Shell.Builtin

/-! Flags. -/

/-- The long names of the flags. Some flags have no letter. -/
def flagNames : List (String × Option Char) :=
  [("errexit", some 'e'), ("noglob", some 'f'), ("ignoreeof", some 'I'), ("interactive", some 'i'),
    ("monitor", some 'm'), ("noexec", some 'n'), ("stdin", some 's'), ("xtrace", some 'x'),
    ("verbose", some 'v'), ("vi", some 'V'), ("emacs", some 'E'), ("noclobber", some 'C'),
    ("allexport", some 'a'), ("notify", some 'b'), ("nounset", some 'u'),
    ("privileged", some 'p'), ("nolog", none), ("debug", none)]

def setLetter (value : Bool) (letter : Char) : Step Unit :=
  if flagNames.any fun entry => entry.2 = some letter then
    modify fun state => state.setFlag letter value
  else Step.fail ("Illegal option -".toList ++ [letter])

def setNamed (value : Bool) (name : Octets) : Step Unit :=
  match flagNames.lookup (String.ofList name) with
  | some (some letter) => modify fun state => state.setFlag letter value
  | some none => return
  | none => Step.fail ("Illegal option -o ".toList ++ name)

/-- The names of all flags with their values, for reading or as commands. -/
def flagList (state : State) (asCommands : Bool) : Octets :=
  flagNames.flatMap fun (name, letter) =>
    let value := (letter.map state.hasFlag).getD false
    if asCommands then
      (if value then "set -o " else "set +o ").toList ++ name.toList ++ ['\n']
    else
      let spaces := List.replicate (16 - name.length) ' '
      name.toList ++ spaces ++ (if value then "on\n" else "off\n").toList

/-- What is left of the arguments behind flags, and whether they are to be the new arguments of the
shell in any case. -/
structure FlagReading where
  others : List Octets
  isClosed : Bool := false
  commandAsked : Bool := false
  output : Octets := []

/-- Flags are set by arguments that begin with a minus or a plus. Every round passes a letter or an
argument. A shell that is started also knows a flag for a command. -/
def readFlags (isStart : Bool) : Nat → Option (Bool × Octets) → List Octets → Step FlagReading
  | 0, _, arguments => return { others := arguments }
  | rounds + 1, some (value, letter :: letters), arguments => do
    if letter = 'c' && isStart then
      let reading ← readFlags isStart rounds (some (value, letters)) arguments
      return { reading with commandAsked := true }
    else if letter = 'l' && isStart then readFlags isStart rounds (some (value, letters)) arguments
    else if letter = 'o' then
      match arguments with
      | [] =>
        let state ← get
        let output := (if value then "Current option settings\n".toList else []) ++ flagList state !value
        let reading ← readFlags isStart rounds (some (value, letters)) []
        return { reading with output := output ++ reading.output }
      | name :: arguments =>
        setNamed value name
        readFlags isStart rounds (some (value, letters)) arguments
    else
      setLetter value letter
      readFlags isStart rounds (some (value, letters)) arguments
  | rounds + 1, some (_, []), arguments => readFlags isStart rounds none arguments
  | rounds + 1, none, arguments =>
    match arguments with
    | ['-'] :: others => do
      unless isStart do modify fun state => (state.setFlag 'x' false).setFlag 'v' false
      return { others }
    | ['-', '-'] :: others => return { others, isClosed := true }
    | ('-' :: letters) :: others => readFlags isStart rounds (some (true, letters)) others
    | ('+' :: letters) :: others => readFlags isStart rounds (some (false, letters)) others
    | others => return { others }

def flags (isStart : Bool) (arguments : List Octets) : Step FlagReading :=
  readFlags isStart (2 * (arguments.flatten.length + arguments.length) + 2) none arguments

/-! Lists of variables. -/

/-- Names in the order of their bytes. -/
def sorted (entries : List (Octets × Variable)) : List (Octets × Variable) :=
  entries.mergeSort fun left right => Pathname.isBefore left.1 right.1

def assignmentText (name : Octets) (value : Option Octets) : Octets :=
  match value with
  | none => name
  | some value => name ++ '=' :: quoted value

/-- The variables of a kind as commands that make them. -/
def variableList (command : Octets) (isListed : Variable → Bool) : Step Octets := do
  let state ← get
  return (sorted (state.assigned.filter fun entry => isListed entry.2)).flatMap
    fun (name, listed) =>
      (if command.isEmpty then [] else command ++ [' ']) ++ assignmentText name listed.value ++
        ['\n']

def setFlags (arguments : List Octets) : Step Reply := do
  match arguments with
  | [] => return { output := ← variableList [] fun listed => listed.value.isSome }
  | _ =>
    let reading ← flags false arguments
    if reading.isClosed || !reading.others.isEmpty then
      modify fun state => { state with arguments := reading.others, optionPlace := none }
    return { output := reading.output }

def shiftArguments (arguments : List Octets) : Step Reply := do
  let count ←
    match arguments with
    | [] => pure 1
    | argument :: _ => numberOf argument
  let state ← get
  if state.arguments.length < count then Step.fail "can't shift that many".toList
  else
    modify fun state =>
      { state with arguments := state.arguments.drop count, optionPlace := none }
    return {}

/-! Marks of variables. -/

def failName {Value : Type} (name : Octets) : Step Value :=
  Step.fail (name ++ ": bad variable name".toList)

/-- The name and the value of an argument with an equals sign. -/
def assignment? (argument : Octets) : Option (Octets × Octets) :=
  let name := argument.takeWhile (· != '=')
  match argument.drop name.length with
  | _ :: value => some (name, value)
  | [] => none

/-- Variables get values and a mark. -/
def mark (marked : Variable → Variable) (argument : Octets) : Step Unit := do
  match assignment? argument with
  | some (name, value) =>
    if isName name then
      Step.assign name value
      modify fun state =>
        state.putVariable name (some (marked ((state.variableOf? name).getD {})))
    else failName name
  | none =>
    if isName argument then
      modify fun state =>
        state.putVariable argument (some (marked ((state.variableOf? argument).getD {})))
    else failName argument

def markOrList (command : String) (isMarked : Variable → Bool) (marked : Variable → Variable)
    (arguments : List Octets) : Step Reply := do
  let (given, names) ← options "p" arguments
  if given.isEmpty && !names.isEmpty then
    names.forM (mark marked)
    return {}
  else return { output := ← variableList command.toList isMarked }

def exportNames (arguments : List Octets) : Step Reply :=
  markOrList "export" Variable.isExported (fun marked => { marked with isExported := true }) arguments

def protectNames (arguments : List Octets) : Step Reply :=
  markOrList "readonly" Variable.isReadOnly (fun marked => { marked with isReadOnly := true })
    arguments

/-- The last of the options says whether functions are meant. -/
def unsetNames (arguments : List Octets) : Step Reply := do
  let (given, names) ← options "vf" arguments
  match given.getLast? with
  | some ('f', _) =>
    modify fun state =>
      { state with functions := state.functions.filter fun entry => !names.contains entry.1 }
  | _ =>
    names.forM fun name => if isName name then Step.unset name else failName name
  return {}

/-- Variables are as before behind the function. -/
def localNames (arguments : List Octets) : Step Reply := do
  if (← get).localScopes.isEmpty then Step.fail "not in a function".toList
  else
    arguments.forM fun argument => do
      match assignment? argument with
      | some (name, value) =>
        if isName name then
          Step.keepInScope name
          Step.assign name value
        else failName name
      | none =>
        if argument = ['-'] then pure ()
        else if isName argument then Step.keepInScope argument
        else failName argument
    return {}

/-! Reading. -/

/-- A character of a line, or the place where two lines were joined. A quoted character cannot
separate fields. -/
inductive LinePart where
  | plain (octet : Char)
  | quoted (octet : Char)
  | joint

/-- The parts of a line, how much of the text it takes and whether it has an end. A backslash quotes a
character or joins lines, unless it is taken as it is. -/
def lineParts (isRaw : Bool) : Octets → List LinePart × Nat × Bool
  | [] => ([], 0, false)
  | '\n' :: _ => ([], 1, true)
  | '\\' :: '\n' :: text =>
    if isRaw then ([.plain '\\'], 2, true)
    else
      let (parts, count, isComplete) := lineParts isRaw text
      (.joint :: parts, count + 2, isComplete)
  | '\\' :: octet :: text =>
    if isRaw then
      let (parts, count, isComplete) := lineParts isRaw (octet :: text)
      (.plain '\\' :: parts, count + 1, isComplete)
    else
      let (parts, count, isComplete) := lineParts isRaw text
      (.quoted octet :: parts, count + 2, isComplete)
  | octet :: text =>
    let (parts, count, isComplete) := lineParts isRaw text
    let isLeftOut := octet = '\x00' || (octet = '\\' && !isRaw)
    (if isLeftOut then parts else .plain octet :: parts, count + 1, isComplete)

/-- The fields so far and the one that has begun, backwards. The last variables are those that have no
field yet; with none of them left the field goes on to the end of the line, less what can be cut off. -/
structure LineSplitting where
  variablesLeft : Nat
  ended : List Octets := []
  current : Octets := []
  kept : Option Nat := none
  isDelimited : Bool := false

namespace LineSplitting

def append (splitting : LineSplitting) (octet : Char) : LineSplitting :=
  { splitting with current := octet :: splitting.current }

/-- In the last field white space at the end can be cut off, and one other separator if nothing else
follows. -/
def appendLast (separators : Octets) (splitting : LineSplitting) (octet : Char) : LineSplitting :=
  let isSeparator := separators.contains octet
  if isSeparator && [' ', '\t', '\n'].contains octet then
    let kept := splitting.kept.getD splitting.current.length
    { splitting.append octet with kept := some kept }
  else
    let kept := if isSeparator && splitting.isDelimited then splitting.kept else none
    { splitting.append octet with kept, isDelimited := false }

/-- White space separates fields together with one other separator. -/
def plainOctet (separators : Octets) (splitting : LineSplitting) (octet : Char) : LineSplitting :=
  let isSeparator := separators.contains octet
  let isSpace := isSeparator && [' ', '\t', '\n'].contains octet
  if splitting.variablesLeft = 0 then splitting.appendLast separators octet
  else if splitting.isDelimited && isSeparator then { splitting with isDelimited := isSpace }
  else if isSpace && splitting.current.isEmpty then splitting
  else if isSeparator then
    let variablesLeft := splitting.variablesLeft - 1
    if variablesLeft = 0 then
      { splitting.append octet with
        variablesLeft, kept := some splitting.current.length, isDelimited := isSpace }
    else
      let ended := splitting.current.reverse :: splitting.ended
      { splitting with variablesLeft, ended, current := [], isDelimited := isSpace }
  else { splitting.append octet with isDelimited := false }

def part (separators : Octets) (splitting : LineSplitting) : LinePart → LineSplitting
  | .plain octet => splitting.plainOctet separators octet
  | .quoted octet => { splitting.append octet with isDelimited := false }
  | .joint => { splitting with isDelimited := false }

end LineSplitting

/-- The fields of a line for a number of variables. -/
def lineFields (separators : Octets) (count : Nat) (parts : List LinePart) : List Octets :=
  let splitting := parts.foldl (LineSplitting.part separators) { variablesLeft := count }
  let current := splitting.current.reverse
  let last := (splitting.kept.map current.take).getD current
  (if last.isEmpty then splitting.ended else last :: splitting.ended).reverse

/-- Names get the fields of a line; the names behind the last field get empty values. -/
def assignFields : List Octets → List Octets → Step Unit
  | [], _ => return
  | name :: names, fields => do
    if isName name then
      Step.assign name (fields.head?.getD [])
      assignFields names fields.tail
    else failName name

def readLine (arguments : List Octets) : Step Reply := do
  let (given, names) ← options "p:r" arguments
  if names.isEmpty then Step.fail "arg count".toList
  else
    let text ←
      match ← Step.openFile? 0 with
      | some (_, file) => if file.isReadable then Step.peek file else pure []
      | none => pure []
    let (parts, count, isComplete) := lineParts (given.any fun entry => entry.1 = 'r') text
    match ← Step.openFile? 0 with
    | some (number, file) => Step.advance number file count
    | none => pure ()
    let separators := Expansion.separators (← get)
    assignFields names (lineFields separators names.length parts)
    return { status := if isComplete then 0 else 1 }

/-! Options of scripts. -/

/-- The place of the argument that is looked at next, counted from one, and how much of the one before
it has been passed. -/
structure OptionProgress where
  next : Nat
  passed : Option Nat

/-- The next option of a list of arguments: its letter and its value, what is told, and the progress.
At the end there is no letter. -/
def nextOption (letters : Octets) (arguments : List Octets) (progress : OptionProgress) :
    Option Char × Option Octets × Octets × OptionProgress :=
  let isSilent := letters.head? = some ':'
  let current :=
    match progress.passed with
    | none => []
    | some passed => ((arguments[progress.next - 2]?).getD []).drop passed
  let (ahead, next, isOver) : Octets × Nat × Bool :=
    if !current.isEmpty && 1 < progress.next then (current, progress.next, false)
    else
      match arguments[progress.next - 1]? with
      | some ['-', '-'] => ([], progress.next + 1, true)
      | some ('-' :: letter :: rest) => (letter :: rest, progress.next + 1, false)
      | _ => ([], progress.next, true)
  match ahead with
  | [] => (none, none, [], ⟨next, none⟩)
  | letter :: rest =>
    if isOver then (none, none, [], ⟨next, none⟩)
    else
      let passed := ((arguments[next - 2]?).getD []).length - rest.length
      let known := letters.dropWhile (· != letter)
      if known.isEmpty || letter = ':' then
        if isSilent then (some '?', some [letter], [], ⟨next, some passed⟩)
        else
          (some '?', none, "Illegal option -".toList ++ [letter, '\n'], ⟨next, some passed⟩)
      else if known[1]? = some ':' then
        if !rest.isEmpty then (some letter, some rest, [], ⟨next, none⟩)
        else
          match arguments[next - 1]? with
          | some argument => (some letter, some argument, [], ⟨next + 1, none⟩)
          | none =>
            if isSilent then (some ':', some [letter], [], ⟨next, some passed⟩)
            else
              (some '?', none, "No arg for -".toList ++ letter :: " option\n".toList,
                ⟨next, some passed⟩)
      else (some letter, some [], [], ⟨next, some passed⟩)

def getopts (arguments : List Octets) : Step Reply := do
  match (← options "" arguments).2 with
  | letters :: name :: others =>
    let state ← get
    let arguments := if others.isEmpty then state.arguments else others
    let place := (state.value? "OPTIND".toList).bind plainNumber?
    let next := max 1 (place.getD 1)
    let progress : OptionProgress :=
      if arguments.length + 1 < next then ⟨1, none⟩ else ⟨next, state.optionPlace⟩
    let (letter, value, message, progress) := nextOption letters arguments progress
    Step.writeError message
    if letter.isSome then
      match value with
      | some value => Step.assign "OPTARG".toList value
      | none => Step.unset "OPTARG".toList
    Step.assign "OPTIND".toList (decimal progress.next)
    modify fun state => { state with optionPlace := progress.passed }
    if isName name then
      Step.assign name [letter.getD '?']
      return { status := if letter.isSome then 0 else 1 }
    else failName name
  | _ => Step.fail "Usage: getopts optstring var [arg...]".toList

/-! Aliases. -/

def aliasText (name value : Octets) : Octets :=
  assignmentText name (some value) ++ ['\n']

/-- Aliases are made, or told with their values. -/
def aliasArguments : List Octets → Step Reply
  | [] => return {}
  | argument :: arguments => do
    let own : Reply ←
      match (if argument.head? = some '=' then none else assignment? argument) with
      | some (name, value) =>
        modify fun state =>
          { state with
            aliases := (name, value) :: state.aliases.filter fun entry => entry.1 != name }
        pure {}
      | none =>
        match (← get).aliases.lookup argument with
        | some value => pure { output := aliasText argument value }
        | none =>
          Step.writeError ("alias: ".toList ++ argument ++ " not found\n".toList)
          pure { status := 1 }
    let rest ← aliasArguments arguments
    return { output := own.output ++ rest.output, status := max own.status rest.status }

def aliasNames (arguments : List Octets) : Step Reply := do
  match arguments with
  | [] =>
    return { output := (← get).aliases.reverse.flatMap fun (name, value) => aliasText name value }
  | _ => aliasArguments arguments

def unaliasArguments : List Octets → Step Nat
  | [] => return 0
  | name :: names => do
    let isKnown := ((← get).aliases.lookup name).isSome
    modify fun state => { state with aliases := state.aliases.filter fun entry => entry.1 != name }
    unless isKnown do Step.writeError ("unalias: ".toList ++ name ++ " not found\n".toList)
    let status ← unaliasArguments names
    return if isKnown then status else 1

def unaliasNames (arguments : List Octets) : Step Reply := do
  let (given, names) ← options "a" arguments
  if given.isEmpty then return { status := ← unaliasArguments names }
  else
    modify fun state => { state with aliases := [] }
    return {}

end LintRepair.Shell.Builtin
