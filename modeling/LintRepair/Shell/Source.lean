/-
This file holds the text of a script while it is read, and the tokens that are cut from it.
-/

import LintRepair.Shell.Syntax

namespace LintRepair.Shell

inductive RedirectionOperator where
  | file (kind : RedirectionKind)
  | copyInput
  | copyOutput
  | document (stripsTabs : Bool)
deriving Repr, DecidableEq

def RedirectionOperator.descriptor : RedirectionOperator → Nat
  | file .input | file .inputOutput | copyInput | document _ => 0
  | _ => 1

inductive Token where
  | endOfFile
  | newline
  | operator (text : Octets)
  | reserved (name : Octets)
  | word (word : Word)
  | redirection (descriptor : Option Nat) (operator : RedirectionOperator)

/-- How a token is named in an error. -/
def Token.name : Token → Octets
  | endOfFile => "end of file".toList
  | newline => "newline".toList
  | operator text => '"' :: text ++ ['"']
  | reserved name => '"' :: name ++ ['"']
  | word _ => "word".toList
  | redirection _ _ => "redirection".toList

def Token.isOperator (token : Token) (text : String) : Bool :=
  match token with
  | operator own => own == text.toList
  | _ => false

def Token.isReserved (token : Token) (name : String) : Bool :=
  match token with
  | reserved own => own == name.toList
  | _ => false

structure SyntaxError where
  line : Nat
  message : Octets

/-- The text of an alias that stands in the text ahead, and how much text is behind it. -/
structure Expanding where
  name : Octets
  behind : Nat
  endsInBlank : Bool

/-- The text ahead and its line. The lines of documents that were taken out of it are counted at the
next line end. A token may be put back, and the last one is kept for errors. A word behind an alias
that ends in a blank may be an alias too, and nothing is expanded in the word that ends a document. -/
structure Source where
  text : Octets
  line : Nat := 1
  taken : Nat := 0
  putBack : Option Token := none
  last : Token := .newline
  aliases : List (Octets × Octets) := []
  expanding : List Expanding := []
  isBehindBlank : Bool := false
  readsDelimiter : Bool := false

abbrev Reading := StateT Source (Except SyntaxError)

namespace Reading

def fail {Value : Type} (message : Octets) : Reading Value := do
  throw ⟨(← get).line, message⟩

def failText {Value : Type} (message : String) : Reading Value :=
  fail message.toList

/-- The last token is not the expected one. -/
def unexpected {Value : Type} (expected : Option String) : Reading Value := do
  let found := "Syntax error: ".toList ++ (← get).last.name ++ " unexpected".toList
  match expected with
  | none => fail found
  | some name => fail (found ++ " (expecting ".toList ++ name.toList ++ [')'])

/-- A backslash before a line end joins two lines. -/
def joinLines : Octets → Octets × Nat
  | '\\' :: '\n' :: text =>
    let (rest, lines) := joinLines text
    (rest, lines + 1)
  | text => (text, 0)

/-- The text ahead behind joined lines. -/
def ahead : Reading Octets := do
  let source ← get
  let (text, lines) := joinLines source.text
  set { source with text, line := source.line + lines }
  return text

/-- The given text, which stands at the start of the text ahead, is passed. -/
def pass (passed : Octets) : Reading Unit :=
  modify fun source =>
    let lines := passed.count '\n'
    { source with
      text := source.text.drop passed.length
      line := source.line + lines + (if lines = 0 then 0 else source.taken)
      taken := if lines = 0 then source.taken else 0 }

/-- Characters are passed that do not count as line ends. -/
def skip (count : Nat) : Reading Unit :=
  modify fun source => { source with text := source.text.drop count }

/-- The longest run of characters of a class at the start of the text ahead. -/
def passWhile (inClass : Char → Bool) : Reading Octets := do
  let run := (← get).text.takeWhile inClass
  pass run
  return run

def putBack (token : Token) : Reading Unit :=
  modify fun source => { source with putBack := some token }

/-! Aliases. -/

/-- The text of an alias takes the place of its name. -/
def expandAlias (name replacement : Octets) : Reading Unit :=
  modify fun source =>
    let endsInBlank := (replacement.getLast?.map isBlank).getD false
    { source with
      text := replacement ++ source.text
      expanding := ⟨name, source.text.length, endsInBlank⟩ :: source.expanding }

/-- The aliases whose text has been passed may be used again. -/
def leaveAliases : Reading Unit :=
  modify fun source =>
    let (ahead, passed) := source.expanding.partition fun entry => entry.behind < source.text.length
    { source with expanding := ahead, isBehindBlank := passed.any Expanding.endsInBlank }

/-- The value of an alias that does not stand in its own text. -/
def alias? (name : Octets) : Reading (Option Octets) := do
  let source ← get
  if source.expanding.any fun entry => entry.name = name then return none
  else return source.aliases.lookup name

/-- A text is read in place of the text ahead, and the aliases in use stay so. -/
def within (text : Octets) (line : Nat) : Reading Unit :=
  modify fun source =>
    { source with
      text, line, expanding := source.expanding.map fun entry => { entry with behind := 0 } }

/-! Documents. -/

/-- The character that closes what the start of a text opens within the innermost open part, and how
long that start is. -/
def opening? (innermost : Option Char) (text : Octets) : Option (Char × Nat) :=
  match text with
  | '$' :: '(' :: _ => some (')', 2)
  | '$' :: '\x7b' :: _ => some ('\x7d', 2)
  | '\x60' :: _ => some ('\x60', 1)
  | '"' :: _ => some ('"', 1)
  | '\'' :: _ => if innermost = some '"' then none else some ('\'', 1)
  | '(' :: _ => if innermost = some ')' then some (')', 1) else none
  | _ => none

/-- Where the line ends on which a document was announced, apart from line ends in quotations and
expansions. Every round passes a character; a comment may begin behind a blank. -/
def lineLength : Nat → List Char → Bool → Octets → Nat
  | 0, _, _, _ => 0
  | _, _, _, [] => 0
  | rounds + 1, open', mayComment, character :: text =>
    let pass := fun (open' : List Char) (count : Nat) (mayComment : Bool) =>
      count + lineLength rounds open' mayComment ((character :: text).drop count)
    let innermost := open'.head?
    if innermost = some character then pass open'.tail 1 false
    else if innermost = some '\'' then pass open' 1 false
    else if character = '\\' then pass open' 2 false
    else
      match opening? innermost (character :: text) with
      | some (closing, count) => pass (closing :: open') count false
      | none =>
        if character = '\n' && open'.isEmpty then 0
        else if character = '#' && mayComment && (innermost.isNone || innermost = some ')') then
          pass open' ((character :: text).takeWhile (· != '\n')).length false
        else pass open' 1 (isBlank character || "\n;&|<>()".toList.contains character)

/-- A line of a document with its end. Where quotations count, a backslash at the end of a line joins
it with the next one. -/
def documentLine (isQuoted : Bool) : Octets → Octets
  | [] => []
  | '\n' :: _ => ['\n']
  | '\\' :: '\n' :: text => if isQuoted then ['\\', '\n'] else '\\' :: '\n' :: documentLine isQuoted text
  | '\\' :: character :: text =>
    if isQuoted then '\\' :: documentLine isQuoted (character :: text)
    else '\\' :: character :: documentLine isQuoted text
  | character :: text => character :: documentLine isQuoted text

/-- The text of a document and the length that it takes with its last line. Every round passes one
line. -/
def documentText (delimiter : Octets) (isQuoted stripsTabs : Bool) :
    Nat → Octets → Octets × Nat
  | 0, _ => ([], 0)
  | _, [] => ([], 0)
  | rounds + 1, text =>
    let line := documentLine isQuoted text
    let stripped := if stripsTabs then line.dropWhile (· == '\t') else line
    if stripped = delimiter ++ ['\n'] || stripped = delimiter then ([], line.length)
    else
      let (rest, length) := documentText delimiter isQuoted stripsTabs rounds (text.drop line.length)
      (stripped ++ rest, line.length + length)

/-- The document announced on this line is taken out of the text ahead, so that the next one follows
the line end directly. -/
def takeDocument (delimiter : Octets) (isQuoted stripsTabs : Bool) : Reading Octets := do
  let source ← get
  let line := source.text.take (lineLength (source.text.length + 1) [] false source.text + 1)
  let behind := source.text.drop line.length
  let (text, length) := documentText delimiter isQuoted stripsTabs (behind.length + 1) behind
  let taken := source.taken + (behind.take length).count '\n'
  let expanding := source.expanding.map fun entry => { entry with behind := entry.behind - length }
  set { source with text := line ++ behind.drop length, taken, expanding }
  return text

end Reading

end LintRepair.Shell
