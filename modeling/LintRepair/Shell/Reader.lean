/-
This file reads shell scripts.
-/

import LintRepair.Shell.Source

namespace LintRepair.Shell

namespace Reading

/-- Where a word stands. -/
inductive Context where
  | bare
  | quoted
  | braced
  | quotedBraced
  | document
  | documentBraced
  | arithmetic (depth : Nat)
deriving DecidableEq

namespace Context

/-- Whether the text and the values in a context are taken as they are. -/
def isQuoted : Context → Bool
  | bare | braced => false
  | _ => true

/-- The context of the word in an expansion. A pattern is never quoted. -/
def within (context : Context) (isPattern : Bool) : Context :=
  if isPattern then braced
  else
    match context with
    | bare | braced => braced
    | document | documentBraced => documentBraced
    | _ => quotedBraced

/-- What is wrong when the text ends within the context. -/
def unterminated : Context → Option String
  | bare | document => none
  | quoted | quotedBraced => some "Syntax error: Unterminated quoted string"
  | braced | documentBraced => some "Syntax error: Missing '\x7d'"
  | arithmetic _ => some "Syntax error: Missing '))'"

/-- Whether a backslash quotes a character. -/
def escapes (context : Context) (character : Char) : Bool :=
  match context with
  | bare | braced => true
  | quoted | arithmetic _ => "\\`$\"".toList.contains character
  | quotedBraced => "\\`$\"\x7d".toList.contains character
  | document => "\\`$".toList.contains character
  | documentBraced => "\\`$\"\x7d".toList.contains character

end Context

/-- A character that ends an unquoted word. -/
def isOperatorCharacter (character : Char) : Bool :=
  isBlank character || "\n;&|<>()".toList.contains character

/-- A character with a meaning of its own within a word. -/
def isSpecial (character : Char) : Bool :=
  isOperatorCharacter character || "\\'\"$`\x7d".toList.contains character

def isSpecialParameter (character : Char) : Bool :=
  character.isDigit || "!#$*-@?".toList.contains character

def reservedWords : List Octets :=
  ["!", "\x7b", "\x7d", "case", "do", "done", "elif", "else", "esac", "fi", "for", "if", "in", "then",
    "until", "while"].map String.toList

/-- Commands that a function cannot replace. -/
def specialCommands : List Octets :=
  [".", ":", "break", "continue", "eval", "exec", "exit", "export", "local", "readonly", "return",
    "set", "shift", "times", "trap", "unset"].map String.toList

/-- Neighbouring parts of one kind are one part. -/
def merged : Word → Word
  | [] => []
  | part :: parts =>
    match part, merged parts with
    | .literal first, .literal second :: rest => .literal (first ++ second) :: rest
    | .quoted first, .quoted second :: rest => .quoted (first ++ second) :: rest
    | part, rest => part :: rest

/-- A text in its context. -/
def textPart (context : Context) (text : Octets) : WordPart :=
  if context.isQuoted then .quoted text else .literal text

/-- The text up to a back quote, without the backslashes that quote. -/
def backQuoted (isQuoted : Bool) : Octets → Option (Octets × Octets)
  | [] => none
  | '\x60' :: text => some ([], text)
  | '\\' :: '\n' :: text => backQuoted isQuoted text
  | '\\' :: character :: text => do
    let (inside, rest) ← backQuoted isQuoted text
    if "`\\$".toList.contains character || isQuoted && character == '"' then
      return (character :: inside, rest)
    else return ('\\' :: character :: inside, rest)
  | character :: text => do
    let (inside, rest) ← backQuoted isQuoted text
    return (character :: inside, rest)

/-- The name in braces: how much text it takes, and whether its length is asked for. Without a name the
expansion is malformed. -/
def bracedName (text : Octets) : Nat × Option (Bool × Octets) :=
  match text with
  | '#' :: '\x7d' :: _ => (1, some (false, ['#']))
  | '#' :: rest =>
    match rest with
    | first :: behind =>
      if isNameStart first then length (rest.takeWhile isNameCharacter)
      else if first.isDigit then length (rest.takeWhile Char.isDigit)
      else if behind.head? = some '\x7d' then
        if isSpecialParameter first then length [first] else (2, none)
      else (1, some (false, ['#']))
    | [] => (1, some (false, ['#']))
  | first :: _ =>
    if isNameStart first then own (text.takeWhile isNameCharacter)
    else if first.isDigit then own (text.takeWhile Char.isDigit)
    else if isSpecialParameter first then own [first]
    else (if first = '\x7d' then 0 else 1, none)
  | [] => (0, none)
where
  own (name : Octets) : Nat × Option (Bool × Octets) :=
    (name.length, some (false, name))
  length (name : Octets) : Nat × Option (Bool × Octets) :=
    (name.length + 1, some (true, name))

/-- What an operator behind a name in braces makes of the value and the word behind it. -/
inductive BracedOperator where
  | change (ofWord : Word → Change)
  | trim (fromEnd longest : Bool)
  | unchanged
  | unknown

/-- The operator behind a name in braces and how much text it takes. -/
def bracedOperator (text : Octets) : Nat × BracedOperator :=
  match text with
  | '%' :: '%' :: _ => (2, .trim true true)
  | '%' :: _ => (1, .trim true false)
  | '#' :: '#' :: _ => (2, .trim false true)
  | '#' :: _ => (1, .trim false false)
  | ':' :: '\x7d' :: _ => (2, .unchanged)
  | ':' :: operator :: _ => (2, fallback operator true)
  | operator :: _ => (1, fallback operator false)
  | [] => (0, .unknown)
where
  fallback (operator : Char) (orEmpty : Bool) : BracedOperator :=
    match operator with
    | '-' => .change (.fallback .instead orEmpty)
    | '=' => .change (.fallback .assigned orEmpty)
    | '?' => .change (.fallback .failure orEmpty)
    | '+' => .change (.fallback .alternative orEmpty)
    | _ => .unknown

/-- The parts between double quotes begin with a quoted text, unless they are the arguments alone. -/
def begun : Word → Word
  | [.parameter ['@'] .unchanged isQuoted] => [.parameter ['@'] .unchanged isQuoted]
  | parts => .quoted [] :: parts

/-- The text of a word that announces a document, without its quotations. -/
def delimiterText : Word → Octets
  | [] => []
  | .literal text :: parts => text ++ delimiterText parts
  | .quoted text :: parts => text ++ delimiterText parts
  | _ :: parts => delimiterText parts

def hasQuotation : Word → Bool
  | [] => false
  | .quoted _ :: _ => true
  | _ :: parts => hasQuotation parts

/-- How far a list of commands goes: to the end of a line, over lines, or over lines and possibly
empty. -/
inductive Extent where
  | line
  | block
  | optional
deriving DecidableEq

/-- Whether a token ends a list of commands. -/
def endsList : Token → Bool
  | .endOfFile => true
  | .operator text => text == [')'] || text == ";;".toList
  | .reserved name =>
    ["\x7d", "do", "done", "elif", "else", "esac", "fi", "then"].any fun ending =>
      name == ending.toList
  | _ => false

/-- A word that begins with a name and an equals sign. -/
def assignment? : Word → Option (Octets × Word)
  | .literal text :: parts =>
    match text.dropWhile isNameCharacter with
    | '=' :: value =>
      let name := text.takeWhile isNameCharacter
      if isName name then
        some (name, if value.isEmpty then parts else .literal value :: parts)
      else none
    | _ => none
  | _ => none

/-- Spaces, joined lines and a comment are passed. Every round passes some of them. -/
def skipBlanks : Nat → Reading Unit
  | 0 => return
  | rounds + 1 => do
    let text ← ahead
    match text with
    | '#' :: _ => let _ ← passWhile (· != '\n')
    | character :: _ =>
      if isBlank character then
        let _ ← passWhile isBlank
        skipBlanks rounds
      else return
    | [] => return

/-- An operator of one character, or of two equal ones. -/
def operator? : Reading (Option Octets) := do
  match (← get).text with
  | [] => return none
  | character :: _ =>
    if "()".toList.contains character then
      pass [character]
      return some [character]
    else if "&|;".toList.contains character then
      pass [character]
      if (← ahead).head? = some character then
        pass [character]
        return some [character, character]
      else return some [character]
    else return none

/-- The operators of redirections by their first two characters. -/
def redirectionOperators : List (Octets × RedirectionOperator) :=
  [("<<".toList, .document false), ("<&".toList, .copyInput), ("<>".toList, .file .inputOutput),
    (">>".toList, .file .append), (">&".toList, .copyOutput), (">|".toList, .file .clobber)]

def redirectionOperator? : Reading (Option RedirectionOperator) := do
  match (← get).text with
  | first :: _ =>
    if first != '<' && first != '>' then return none
    else
      pass [first]
      let second := (← ahead).take 1
      match redirectionOperators.lookup (first :: second) with
      | some operator =>
        pass second
        if operator = .document false && (← ahead).head? = some '-' then
          pass ['-']
          return some (.document true)
        else return some operator
      | none => return some (.file (if first = '<' then .input else .output))
  | [] => return none

mutual

/-- The parts of a word up to the end of its context. -/
def parts : Nat → Context → Reading Word
  | 0, _ => failText "Syntax error: too complex"
  | fuel + 1, context => do
    let text := (← get).text
    match text with
    | [] =>
      match context.unterminated with
      | some message => failText message
      | none => return []
    | '\\' :: [] =>
      pass text
      return .quoted ['\\'] :: (← parts fuel context)
    | '\\' :: '\n' :: _ =>
      pass ['\\', '\n']
      parts fuel context
    | '\\' :: character :: _ =>
      pass ['\\', character]
      let escaped := if context.escapes character then [character] else ['\\', character]
      return .quoted escaped :: (← parts fuel context)
    | '$' :: _ =>
      pass ['$']
      let expanded ← expansion fuel context
      return expanded ++ (← parts fuel context)
    | '\x60' :: rest =>
      if (← get).readsDelimiter then
        pass ['\x60']
        return .quoted ['\x60'] :: (← parts fuel context)
      else
        match backQuoted (context = .quoted || context = .quotedBraced) rest with
        | none =>
          pass text
          failText "Syntax error: EOF in backquote substitution"
        | some (inside, behind) =>
          pass (text.take (text.length - behind.length))
          let source ← get
          within inside 1
          let script ← list fuel .optional
          set source
          return .substitution (script.getD .nothing) context.isQuoted :: (← parts fuel context)
    | character :: rest =>
      match context with
      | .bare =>
        if isOperatorCharacter character then return []
        else if character = '\'' then singleQuoted fuel context
        else if character = '"' then doubleQuoted fuel context
        else
          pass [character]
          let run ← passWhile fun next => !isSpecial next
          return .literal (character :: run) :: (← parts fuel context)
      | .braced =>
        if character = '\x7d' then
          pass [character]
          return []
        else if character = '\'' then singleQuoted fuel context
        else if character = '"' then doubleQuoted fuel context
        else ordinary fuel context character
      | .quoted =>
        if character = '"' then
          pass [character]
          return []
        else ordinary fuel context character
      | .quotedBraced =>
        if character = '\x7d' then
          pass [character]
          return []
        else if character = '"' then doubleQuoted fuel context
        else ordinary fuel context character
      | .document => ordinary fuel context character
      | .documentBraced =>
        if character = '\x7d' then
          pass [character]
          return []
        else if character = '"' then doubleQuoted fuel context
        else ordinary fuel context character
      | .arithmetic depth =>
        if character = '(' then
          pass [character]
          return .quoted ['('] :: (← parts fuel (.arithmetic (depth + 1)))
        else if character = ')' then
          match depth, rest with
          | 0, ')' :: _ =>
            pass [')', ')']
            return []
          | _, _ =>
            pass [character]
            return .quoted [')'] :: (← parts fuel (.arithmetic (depth - 1)))
        else ordinary fuel context character

/-- A character without a meaning, and those behind it. -/
def ordinary : Nat → Context → Char → Reading Word
  | 0, _, _ => failText "Syntax error: too complex"
  | fuel + 1, context, character => do
    pass [character]
    let run ← passWhile fun next => !isSpecial next
    return textPart context (character :: run) :: (← parts fuel context)

def singleQuoted : Nat → Context → Reading Word
  | 0, _ => failText "Syntax error: too complex"
  | fuel + 1, context => do
    pass ['\'']
    let inside ← passWhile (· != '\'')
    if (← get).text.isEmpty then failText "Syntax error: Unterminated quoted string"
    else
      pass ['\'']
      return .quoted inside :: (← parts fuel context)

def doubleQuoted : Nat → Context → Reading Word
  | 0, _ => failText "Syntax error: too complex"
  | fuel + 1, context => do
    pass ['"']
    let inside := begun (← parts fuel .quoted)
    return inside ++ (← parts fuel context)

/-- What follows a dollar sign. Without a name the sign stands for itself. -/
def expansion : Nat → Context → Reading Word
  | 0, _ => failText "Syntax error: too complex"
  | fuel + 1, context => do
    let isQuoted := context.isQuoted
    let text ← ahead
    match (if (← get).readsDelimiter then [] else text) with
    | '(' :: '(' :: _ =>
      pass ['(', '(']
      return [.arithmetic (← parts fuel (.arithmetic 0)) isQuoted]
    | '(' :: _ =>
      pass ['(']
      let script ← list fuel .optional
      let token ← readToken fuel false false false
      if token.isOperator ")" then return [.substitution (script.getD .nothing) isQuoted]
      else unexpected (some "\")\"")
    | '\x7b' :: text =>
      pass ['\x7b']
      let (count, name?) := bracedName text
      skip count
      match name? with
      | none =>
        let _ ← parts fuel (context.within false)
        return [.parameter [] .malformed isQuoted]
      | some (asksLength, name) => braced fuel context asksLength name
    | character :: _ =>
      if isNameStart character then
        let name ← passWhile isNameCharacter
        return [.parameter name .unchanged isQuoted]
      else if isSpecialParameter character then
        pass [character]
        return [.parameter [character] .unchanged isQuoted]
      else return [textPart context ['$']]
    | [] => return [textPart context ['$']]

/-- What follows a name in braces. -/
def braced : Nat → Context → Bool → Octets → Reading Word
  | 0, _, _, _ => failText "Syntax error: too complex"
  | fuel + 1, context, asksLength, name => do
    let isQuoted := context.isQuoted
    let text ← ahead
    if text.head? = some '\x7d' then
      skip 1
      return [.parameter name (if asksLength then .length else .unchanged) isQuoted]
    else if asksLength then
      let _ ← parts fuel (context.within false)
      return [.parameter name .malformed isQuoted]
    else
      let (count, operator) := bracedOperator text
      skip count
      match operator with
      | .change ofWord =>
        let word ← parts fuel (context.within false)
        return [.parameter name (ofWord (merged word)) isQuoted]
      | .trim fromEnd longest =>
        let word ← parts fuel (context.within true)
        return [.parameter name (.trimmed fromEnd longest (merged word)) isQuoted]
      | .unchanged =>
        return .parameter name .unchanged isQuoted :: (← parts fuel (context.within false))
      | .unknown =>
        let _ ← parts fuel (context.within false)
        return [.parameter name .malformed isQuoted]

/-- The next token of the text. -/
def nextToken : Nat → Reading Token
  | 0 => failText "Syntax error: too complex"
  | fuel + 1 => do
    skipBlanks ((← get).text.length + 1)
    leaveAliases
    match (← get).text with
    | [] => return .endOfFile
    | '\n' :: _ =>
      pass ['\n']
      return .newline
    | text =>
      match ← operator? with
      | some operator => return .operator operator
      | none =>
        let descriptor :=
          match text with
          | digit :: next :: _ =>
            if digit.isDigit && (next == '<' || next == '>') then some digit else none
          | _ => none
        pass descriptor.toList
        match ← redirectionOperator? with
        | some operator => return .redirection (descriptor.map fun digit => digit.toNat - 48) operator
        | none => return .word (merged (← parts fuel .bare))

/-- The next token or the one put back. Reserved words and aliases count only where they are asked
for. -/
def readToken : Nat → Bool → Bool → Bool → Reading Token
  | 0, _, _, _ => failText "Syntax error: too complex"
  | fuel + 1, skipsLines, asksReserved, asksAlias => do
    let token ←
      match (← get).putBack with
      | some token =>
        modify fun source => { source with putBack := none }
        pure token
      | none => nextToken fuel
    match token with
    | .newline =>
      modify fun source => { source with last := token }
      if skipsLines then readToken fuel skipsLines asksReserved asksAlias else return token
    | .word word =>
      match plainText? word with
      | none =>
        modify fun source => { source with last := token }
        return token
      | some text =>
        if asksReserved && reservedWords.contains text then
          modify fun source => { source with last := .reserved text }
          return .reserved text
        else
          let asksAlias := asksAlias || (← get).isBehindBlank
          let replacement? ← if asksAlias then alias? text else pure none
          match replacement? with
          | some replacement =>
            expandAlias text replacement
            readToken fuel skipsLines asksReserved asksAlias
          | none =>
            modify fun source => { source with last := token }
            return token
    | _ =>
      modify fun source => { source with last := token }
      return token

/-- The word behind a redirection operator. -/
def redirection : Nat → Option Nat → RedirectionOperator → Reading Redirection
  | 0, _, _ => failText "Syntax error: too complex"
  | fuel + 1, descriptor, operator => do
    let descriptor := descriptor.getD operator.descriptor
    let readsDelimiter :=
      match operator with
      | .document _ => true
      | _ => false
    modify fun source => { source with readsDelimiter }
    let token ← readToken fuel false false false
    modify fun source => { source with readsDelimiter := false }
    match token with
    | .word word =>
      match operator with
      | .file kind => return .file descriptor kind word
      | .copyInput | .copyOutput => return .copy descriptor word
      | .document stripsTabs =>
        let source ← get
        let line := source.line + source.taken + 1
        let isQuoted := hasQuotation word
        let text ← takeDocument (delimiterText word) isQuoted stripsTabs
        if isQuoted then return .document descriptor [.quoted text]
        else
          let source ← get
          within text line
          let body ← parts fuel .document
          set source
          return .document descriptor (merged body)
    | _ => unexpected none

/-- Commands one after the other. -/
def list : Nat → Extent → Reading (Option Script)
  | 0, _ => failText "Syntax error: too complex"
  | fuel + 1, extent => listBehind fuel extent none

/-- The commands behind those that were read before. -/
def listBehind : Nat → Extent → Option Script → Reading (Option Script)
  | 0, _, _ => failText "Syntax error: too complex"
  | fuel + 1, extent, before => do
    let token ← readToken fuel (extent != .line) true true
    match token with
    | .newline => return before
    | .endOfFile =>
      putBack token
      return before
    | _ =>
      putBack token
      if extent != .line && (extent = .optional || before.isSome) && endsList token then return before
      else
        let command ← joined fuel none
        let token ← readToken fuel false false false
        let command := if token.isOperator "&" then .background command else command
        let commands :=
          match before with
          | none => command
          | some first => .sequence first command
        match token with
        | .endOfFile =>
          putBack token
          return some commands
        | .newline =>
          putBack token
          listBehind fuel extent (some commands)
        | _ =>
          if token.isOperator ";" || token.isOperator "&" then listBehind fuel extent (some commands)
          else if extent = .line then unexpected none
          else
            putBack token
            return some commands

/-- Pipelines joined from left to right. -/
def joined : Nat → Option (Script → Script) → Reading Script
  | 0, _ => failText "Syntax error: too complex"
  | fuel + 1, before => do
    let right ← pipeline fuel before.isSome
    let command :=
      match before with
      | none => right
      | some join => join right
    let token ← readToken fuel false false false
    if token.isOperator "&&" then joined fuel (some (.both command))
    else if token.isOperator "||" then joined fuel (some (.either command))
    else
      putBack token
      return command

/-- Commands between vertical bars, which may be negated as a whole. -/
def pipeline : Nat → Bool → Reading Script
  | 0, _ => failText "Syntax error: too complex"
  | fuel + 1, overLines => do
    let token ← readToken fuel overLines true true
    let isNegated := token.isReserved "!"
    unless isNegated do putBack token
    let commands ← piped fuel false
    let script :=
      match commands with
      | [command] => command
      | commands => .pipeline commands
    return if isNegated then .negation script else script

def piped : Nat → Bool → Reading (List Script)
  | 0, _ => failText "Syntax error: too complex"
  | fuel + 1, overLines => do
    let command ← command fuel overLines
    let token ← readToken fuel false false false
    if token.isOperator "|" then return command :: (← piped fuel true)
    else
      putBack token
      return [command]

/-- A reserved word that has to come next. -/
def expectReserved : Nat → Bool → String → Reading Unit
  | 0, _, _ => failText "Syntax error: too complex"
  | fuel + 1, overLines, name => do
    let token ← readToken fuel overLines true false
    unless token.isReserved name do
      let _ ← (unexpected (some ("\"" ++ name ++ "\"")) : Reading Unit)

/-- A list of at least one command. -/
def block : Nat → Reading Script
  | 0 => failText "Syntax error: too complex"
  | fuel + 1 => do
    return (← list fuel .block).getD .nothing

/-- A compound command, a simple one or a definition. -/
def command : Nat → Bool → Reading Script
  | 0, _ => failText "Syntax error: too complex"
  | fuel + 1, overLines => do
    let token ← readToken fuel overLines true true
    let line := (← get).line
    match token with
    | .word _ | .redirection _ _ =>
      putBack token
      simple fuel line [] [] []
    | .operator ['('] =>
      let script ← block fuel
      let token ← readToken fuel false true false
      unless token.isOperator ")" do
        let _ ← (unexpected (some "\")\"") : Reading Unit)
      return .subshell line script (← redirections fuel true)
    | .reserved name =>
      let script ←
        match String.ofList name with
        | "\x7b" =>
          let script ← block fuel
          expectReserved fuel false "\x7d"
          pure script
        | "if" => condition fuel
        | "while" => loop fuel true
        | "until" => loop fuel false
        | "for" => each fuel line
        | "case" => choice fuel line
        | _ => unexpected none
      let redirections ← redirections fuel true
      if redirections.isEmpty then return script else return .redirected line script redirections
    | _ => unexpected none

/-- The redirections behind a compound command. No reserved word follows them directly. -/
def redirections : Nat → Bool → Reading (List Redirection)
  | 0, _ => failText "Syntax error: too complex"
  | fuel + 1, isFirst => do
    match ← readToken fuel false isFirst isFirst with
    | .redirection descriptor operator =>
      let first ← redirection fuel descriptor operator
      return first :: (← redirections fuel false)
    | token =>
      putBack token
      return []

/-- The rest of a condition behind the word that begins it. -/
def condition : Nat → Reading Script
  | 0 => failText "Syntax error: too complex"
  | fuel + 1 => do
    let test ← block fuel
    expectReserved fuel false "then"
    let yes ← block fuel
    let token ← readToken fuel false true false
    if token.isReserved "elif" then return .conditional test yes (some (← condition fuel))
    else if token.isReserved "else" then
      let no ← block fuel
      expectReserved fuel false "fi"
      return .conditional test yes (some no)
    else
      putBack token
      expectReserved fuel false "fi"
      return .conditional test yes none

def loop : Nat → Bool → Reading Script
  | 0, _ => failText "Syntax error: too complex"
  | fuel + 1, expected => do
    let test ← block fuel
    expectReserved fuel false "do"
    let body ← block fuel
    expectReserved fuel false "done"
    return .loop expected test body

/-- A loop over words; without words it runs over the arguments. -/
def each : Nat → Nat → Reading Script
  | 0, _ => failText "Syntax error: too complex"
  | fuel + 1, line => do
    let token ← readToken fuel false false false
    let name :=
      match token with
      | .word word => (plainText? word).filter isName
      | _ => none
    match name with
    | none => failText "Syntax error: Bad for loop variable"
    | some name =>
      let token ← readToken fuel true true true
      let words ←
        if token.isReserved "in" then
          let words ← words fuel
          let last ← readToken fuel false false false
          match last with
          | .newline => pure words
          | _ =>
            if last.isOperator ";" then pure words else unexpected none
        else do
          unless token.isOperator ";" do putBack token
          pure [[.parameter ['@'] .unchanged true]]
      expectReserved fuel true "do"
      let body ← block fuel
      expectReserved fuel false "done"
      return .each line name words body

def words : Nat → Reading (List Word)
  | 0 => failText "Syntax error: too complex"
  | fuel + 1 => do
    match ← readToken fuel false false false with
    | .word word => return word :: (← words fuel)
    | token =>
      putBack token
      return []

def choice : Nat → Nat → Reading Script
  | 0, _ => failText "Syntax error: too complex"
  | fuel + 1, line => do
    match ← readToken fuel false false false with
    | .word word =>
      expectReserved fuel true "in"
      return .choice line word (← cases fuel)
    | _ => unexpected (some "word")

/-- The cases up to the word that ends them. -/
def cases : Nat → Reading (List (List Word × Option Script))
  | 0 => failText "Syntax error: too complex"
  | fuel + 1 => do
    let token ← readToken fuel true true false
    if token.isReserved "esac" then return []
    else
      let first ← if token.isOperator "(" then readToken fuel false false false else pure token
      let patterns ← patterns fuel first
      let body ← list fuel .optional
      let token ← readToken fuel true true false
      if token.isReserved "esac" then return [(patterns, body)]
      else if token.isOperator ";;" then return (patterns, body) :: (← cases fuel)
      else unexpected (some "\";;\"")

/-- Patterns between vertical bars up to a closing parenthesis. -/
def patterns : Nat → Token → Reading (List Word)
  | 0, _ => failText "Syntax error: too complex"
  | fuel + 1, token => do
    let word : Word :=
      match token with
      | .word word => word
      | .reserved name => [.literal name]
      | token => [.literal token.name]
    let next ← readToken fuel false false false
    if next.isOperator "|" then
      return word :: (← patterns fuel (← readToken fuel false false false))
    else if next.isOperator ")" then return [word]
    else unexpected (some "\")\"")

/-- Assignments, words and redirections in any order; an assignment stands before all words. -/
def simple : Nat → Nat → List (Octets × Word) → List Word → List Redirection → Reading Script
  | 0, _, _, _, _ => failText "Syntax error: too complex"
  | fuel + 1, line, assignments, words, redirections => do
    match ← readToken fuel false false words.isEmpty with
    | .word word =>
      match (if words.isEmpty then assignment? word else none) with
      | some assignment => simple fuel line (assignments ++ [assignment]) words redirections
      | none => simple fuel line assignments (words ++ [word]) redirections
    | .redirection descriptor operator =>
      let next ← redirection fuel descriptor operator
      simple fuel line assignments words (redirections ++ [next])
    | token =>
      match words with
      | [name] =>
        if token.isOperator "(" && assignments.isEmpty && redirections.isEmpty then
          definition fuel name
        else
          putBack token
          return .simple line assignments words redirections
      | _ =>
        putBack token
        return .simple line assignments words redirections

/-- A definition behind the name and the opening parenthesis. -/
def definition : Nat → Word → Reading Script
  | 0, _ => failText "Syntax error: too complex"
  | fuel + 1, name => do
    let token ← readToken fuel false false false
    unless token.isOperator ")" do
      let _ ← (unexpected (some "\")\"") : Reading Unit)
    match (plainText? name).filter fun text => isName text && !specialCommands.contains text with
    | none => failText "Syntax error: Bad function name"
    | some name => return .definition name (← command fuel true)

end

/-- A bound for the readers: every character is passed a few times. -/
def fuel (text : Octets) : Nat :=
  16 * text.length + 256

/-- The commands of a line, the text behind it and the number of the next line. -/
structure Line where
  script : Option Script
  behind : Octets
  number : Nat

/-- The next line of a text. At the end of the text there is none. -/
def line? (aliases : List (Octets × Octets)) (text : Octets) (number : Nat) :
    Except SyntaxError (Option Line) := do
  let source : Source := { text, line := number, aliases }
  let (script, behind) ← (list (fuel text) .line).run source
  match script, behind.last with
  | none, .endOfFile => return none
  | script, _ => return some ⟨script, behind.text, behind.line⟩

end Reading

end LintRepair.Shell
