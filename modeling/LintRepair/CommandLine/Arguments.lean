/-
This file reads the words of a command line.
-/

import LintRepair.CommandLine.Help
import LintRepair.Text.Separate

namespace LintRepair.CommandLine

/-- The file that is read when no other is named. -/
def defaultConfigFile : String := "lintpatch.toml"

/-- What the program is asked to do. -/
inductive Invocation where
  | lint (configFile : String) (sourceDirectory : Option String)
  | parameters
deriving Repr, DecidableEq

inductive UsageError where
  | unknownArgument
  | invalidSubcommand
  | invalidValue
  | argumentConflict
  | tooManyValues
  | missingSubcommand
deriving Repr, DecidableEq

/-- Why nothing is run: help was asked for, or the words make no sense. -/
inductive Refusal where
  | help (topic : HelpTopic)
  | usage (error : UsageError)
deriving Repr, DecidableEq

/-- The form of a word. A double dash alone ends the options. A single dash alone is a plain
word. -/
inductive Word where
  | endOfOptions
  | long (name : String) (value : Option String)
  | short (flag : Char) (rest : List Char)
  | plain
deriving Repr, DecidableEq

/-- A long option may carry its value behind an equals sign. -/
def Word.ofString (word : String) : Word :=
  match word.toList with
  | ['-', '-'] => .endOfOptions
  | '-' :: '-' :: text =>
    let name := String.ofList (text.takeWhile (· != '='))
    match text.dropWhile (· != '=') with
    | [] => .long name none
    | _ :: value => .long name (some (String.ofList value))
  | '-' :: flag :: rest => .short flag rest
  | _ => .plain

inductive LintOption where
  | configFile
  | sourceDirectory
deriving Repr, DecidableEq

/-- The options read so far. An option whose value is a word of its own is pending until the next
option or the end, with the value once it has been seen. -/
structure LintOptions where
  configFile : Option String := none
  sourceDirectory : Option String := none
  pending : Option (LintOption × Option String) := none
deriving Repr, DecidableEq

namespace LintOptions

def longOption? : String → Option LintOption
  | "config" => some .configFile
  | "source-dir" => some .sourceDirectory
  | _ => none

def shortOption? : Char → Option LintOption
  | 'c' => some .configFile
  | 's' => some .sourceDirectory
  | _ => none

/-- An option is given at most once, and the name of the file is not empty. -/
def withValue (options : LintOptions) (option : LintOption) (value : String) :
    Except Refusal LintOptions :=
  match option with
  | .configFile =>
    if options.configFile.isSome then .error (.usage .argumentConflict)
    else if value.isEmpty then .error (.usage .invalidValue)
    else .ok { options with configFile := some value }
  | .sourceDirectory =>
    if options.sourceDirectory.isSome then .error (.usage .argumentConflict)
    else .ok { options with sourceDirectory := some value }

/-- The pending option takes its value; without one it is an error. -/
def settled (options : LintOptions) : Except Refusal LintOptions :=
  match options.pending with
  | none => .ok options
  | some (_, none) => .error (.usage .invalidValue)
  | some (option, some value) => LintOptions.withValue { options with pending := none } option value

/-- An option with the value in the same word, or pending without one. -/
def withOption (options : LintOptions) (option : LintOption) (value : Option String) :
    Except Refusal LintOptions := do
  let options ← options.settled
  match value with
  | some value => options.withValue option value
  | none => return { options with pending := some (option, none) }

/-- Behind a one-letter option its value may follow at once or behind an equals sign. -/
def attachedValue? : List Char → Option String
  | [] => none
  | '=' :: value => some (String.ofList value)
  | value => some (String.ofList value)

/-- Help is shown only when everything before it makes sense. -/
def helpBehind (options : LintOptions) : Except Refusal LintOptions := do
  let _ ← options.settled
  .error (.help .lint)

def addWord (options : LintOptions) (word : String) : Except Refusal LintOptions :=
  match Word.ofString word with
  | .long "help" none => options.helpBehind
  | .long "help" (some _) => .error (.usage .tooManyValues)
  | .long name value =>
    match longOption? name with
    | some option => options.withOption option value
    | none => .error (.usage .unknownArgument)
  | .short 'h' _ => options.helpBehind
  | .short flag rest =>
    match shortOption? flag with
    | some option => options.withOption option (attachedValue? rest)
    | none => .error (.usage .unknownArgument)
  | .plain | .endOfOptions =>
    match options.pending with
    | some (option, none) => .ok { options with pending := some (option, some word) }
    | _ => .error (.usage .unknownArgument)

/-- Behind the end of the options there is nothing that a word could stand for. -/
def ofWords (options : LintOptions) : List String → Except Refusal LintOptions
  | [] => options.settled
  | word :: words =>
    if Word.ofString word = .endOfOptions then
      if words.isEmpty then options.settled else .error (.usage .unknownArgument)
    else do (← options.addWord word).ofWords words

end LintOptions

def lint (words : List String) : Except Refusal Invocation := do
  let options ← LintOptions.ofWords {} words
  return .lint (options.configFile.getD defaultConfigFile) options.sourceDirectory

/-- Apart from help there is no option. -/
def parameters : List String → Except Refusal Invocation
  | [] => .ok .parameters
  | word :: words =>
    match Word.ofString word with
    | .endOfOptions =>
      if words.isEmpty then .ok .parameters else .error (.usage .unknownArgument)
    | .long "help" none | .short 'h' _ => .error (.help .parameters)
    | .long "help" (some _) => .error (.usage .tooManyValues)
    | .long _ _ | .short _ _ | .plain => .error (.usage .unknownArgument)

def topicOfSubcommand? : String → Option HelpTopic
  | "lint" => some .lint
  | "params" => some .parameters
  | "help" => some .help
  | _ => none

/-- Help about one subcommand, or about the program. Subcommands have no subcommands. -/
def help : List String → Refusal
  | [] => .help .program
  | [word] =>
    match topicOfSubcommand? word with
    | some topic => .help topic
    | none => .usage .invalidSubcommand
  | _ => .usage .invalidSubcommand

/-- A subcommand behind the end of the options is taken for a surplus word. -/
def behindEndOfOptions : List String → Refusal
  | [] => .usage .missingSubcommand
  | word :: _ =>
    if (topicOfSubcommand? word).isSome then .usage .unknownArgument
    else .usage .invalidSubcommand

/-- The meaning of a command line without the program's name. -/
def read : List String → Except Refusal Invocation
  | [] => .error (.usage .missingSubcommand)
  | "lint" :: words => lint words
  | "params" :: words => parameters words
  | "help" :: words => .error (help words)
  | word :: words =>
    match Word.ofString word with
    | .endOfOptions => .error (behindEndOfOptions words)
    | .long "help" none | .short 'h' _ => .error (.help .program)
    | .long "help" (some _) => .error (.usage .tooManyValues)
    | .long _ _ | .short _ _ => .error (.usage .unknownArgument)
    | .plain => .error (.usage .invalidSubcommand)

end LintRepair.CommandLine
