/-
This file expands words.
-/

import LintRepair.Shell.Arithmetic
import LintRepair.Shell.Pathname

namespace LintRepair.Shell

/-- The output of a script that runs apart. -/
abbrev Capture := Script → Step Octets

/-- Only expanded text is split, quoted arguments stay apart, and quoted text has no meaning in a
pattern. -/
inductive Origin where
  | quoted
  | literal
  | expanded
  | arguments
deriving DecidableEq

def Origin.isQuoted : Origin → Bool
  | quoted | arguments => true
  | literal | expanded => false

/-- A text within the value of a word. -/
structure Piece where
  origin : Origin
  text : Octets

namespace Expansion

/-! Tildes. -/

/-- The text behind a tilde begins with a slash or is empty. -/
def endsTilde : Octets → Bool
  | [] => true
  | octet :: _ => octet = '/'

/-- The home directory that a tilde stands for. -/
def home? (state : State) : Option Octets :=
  (state.value? "HOME".toList).filter fun home => !home.isEmpty

/-- A tilde at the start of a word is replaced where its part of the path is complete. -/
def tilde (state : State) (isWhole : Bool) (text : Octets) : List Piece :=
  match text, home? state with
  | '~' :: rest, some home =>
    if (rest.isEmpty && isWhole) || (!rest.isEmpty && endsTilde rest) then
      [⟨.quoted, home⟩, ⟨.literal, rest⟩]
    else [⟨.literal, text⟩]
  | _, _ => [⟨.literal, text⟩]

/-- In an assignment a tilde also counts behind a colon. -/
def tildes (state : State) (isWhole : Bool) (text : Octets) : List Piece :=
  let texts := Text.separate ':' text
  let last := texts.length - 1
  (texts.zipIdx.map fun (text, place) =>
    let colon : List Piece := if place = 0 then [] else [⟨.literal, [':']⟩]
    colon ++ tilde state (isWhole || place < last) text).flatten

/-! Values. -/

/-- Pieces as one text. -/
def joined (pieces : List Piece) : Octets :=
  pieces.flatMap Piece.text

def glyphs (piece : Piece) : Pattern :=
  piece.text.map fun octet => ⟨octet, piece.origin.isQuoted⟩

def failUnset {Value : Type} (name : Octets) (message : String) : Step Value :=
  Step.fail (name ++ ": ".toList ++ message.toList)

/-- The value of a parameter. A missing one is an error if the shell asks for that. -/
def value (name : Octets) (isApart : Bool) : Step (Option Octets) := do
  let state ← get
  match Step.parameter? state isApart name with
  | some text => return some text
  | none => if state.hasFlag 'u' then failUnset name "parameter not set" else return none

def plainPiece (isQuoted : Bool) (text : Octets) : Piece :=
  ⟨if isQuoted then .quoted else .expanded, text⟩

/-- The piece of a value. No arguments in quotes are no piece. -/
def valuePieces (name : Octets) (isQuoted : Bool) (text : Octets) : Step (List Piece) := do
  if isQuoted && name = ['@'] then
    return if (← get).arguments.isEmpty then [] else [⟨.arguments, text⟩]
  else return [plainPiece isQuoted text]

mutual

/-- The pieces of parts. Where arguments may become several words they stay apart. Literal text within
an expansion counts as expanded. -/
def pieces (capture : Capture) (isApart isWithin : Bool) : List WordPart → Step (List Piece)
  | [] => return []
  | part :: parts => do
    let first ← partPieces capture isApart isWithin part
    return first ++ (← pieces capture isApart isWithin parts)

def partPieces (capture : Capture) (isApart isWithin : Bool) : WordPart → Step (List Piece)
  | .literal text => return [⟨if isWithin then .expanded else .literal, text⟩]
  | .quoted text => return [⟨.quoted, text⟩]
  | .substitution script isQuoted => do
    let output ← capture script
    let text := (output.reverse.dropWhile (· == '\n')).reverse
    return [plainPiece isQuoted text]
  | .arithmetic expression isQuoted => do
    let text := joined (← pieces capture false false expression)
    let value ← Arithmetic.evaluate text
    return [plainPiece isQuoted (integer value)]
  | .parameter name .unchanged isQuoted => do
    match ← value name (isApart && (name = ['@'] || !isQuoted)) with
    | none => return []
    | some text => valuePieces name isQuoted text
  | .parameter name .length isQuoted => do
    let text ← value name false
    return [plainPiece isQuoted (decimal (text.getD []).length)]
  | .parameter name (.fallback kind orEmpty word) isQuoted => do
    let isApart' := isApart && (name = ['@'] || !isQuoted)
    let text := Step.parameter? (← get) isApart' name
    let isMissing := text.isNone || (orEmpty && text = some [])
    match kind with
    | .instead =>
      if isMissing then fallbackPieces capture isApart true word
      else valuePieces name isQuoted (text.getD [])
    | .alternative =>
      if isMissing then return [] else fallbackPieces capture isApart true word
    | .assigned =>
      if isMissing then
        let new := joined (← fallbackPieces capture false false word)
        if isName name then
          Step.assign name new
          valuePieces name isQuoted new
        else failUnset name "bad variable name"
      else valuePieces name isQuoted (text.getD [])
    | .failure =>
      if isMissing then
        let message := joined (← fallbackPieces capture false false word)
        match word with
        | [] =>
          failUnset name (if orEmpty then "parameter not set or null" else "parameter not set")
        | _ => Step.fail (name ++ ": ".toList ++ message)
      else valuePieces name isQuoted (text.getD [])
  | .parameter name (.trimmed fromEnd longest pattern) isQuoted => do
    match ← value name (isApart && (name = ['@'] || !isQuoted)) with
    | none => return []
    | some text =>
      let pattern : Pattern := (← fallbackPieces capture false false pattern).flatMap glyphs
      valuePieces name isQuoted (pattern.trim fromEnd longest text)
  | .parameter _ .malformed _ => Step.fail "Bad substitution".toList

/-- The pieces of the word in an expansion, which may begin with a tilde. -/
def fallbackPieces (capture : Capture) (isApart isWithin : Bool) :
    List WordPart → Step (List Piece)
  | .literal text :: parts => do
    let first := tilde (← get) parts.isEmpty text
    let origin := fun (piece : Piece) =>
      if isWithin && piece.origin = .literal then { piece with origin := .expanded } else piece
    return first.map origin ++ (← pieces capture isApart isWithin parts)
  | parts => pieces capture isApart isWithin parts

end

/-! Fields. -/

/-- The fields so far with the last one first, the field that has begun, whether white space has just
ended one, and whether the last expansion were the quoted arguments. -/
structure Splitting where
  ended : List Pattern := []
  current : Option Pattern := none
  isDelimited : Bool := false
  followsArguments : Bool := false

namespace Splitting

def append (splitting : Splitting) (glyphs : Pattern) : Splitting :=
  { splitting with current := some (splitting.current.getD [] ++ glyphs), isDelimited := false }

/-- The field that has begun ends, whether it has begun or not. -/
def close (splitting : Splitting) : Splitting :=
  { splitting with
    ended := splitting.current.getD [] :: splitting.ended, current := none, isDelimited := false }

/-- Every argument but the first begins a field of its own. -/
def quotedPiece (splitting : Splitting) (text : Octets) : Splitting :=
  match Text.separate '\x00' text with
  | [] => splitting
  | first :: rest =>
    let quoted := fun (text : Octets) => text.map fun octet => (⟨octet, true⟩ : Glyph)
    rest.foldl (fun splitting text => splitting.close.append (quoted text))
      (splitting.append (quoted first))

/-- White space ends a field that has begun. Another separator ends a field even if that is empty,
unless white space before it has just ended one. Behind quoted arguments every separator ends a
field. -/
def expandedOctet (separators : Octets) (splitting : Splitting) (octet : Char) : Splitting :=
  if !(octet = '\x00' || separators.contains octet) then splitting.append [⟨octet, false⟩]
  else if splitting.followsArguments then splitting.close
  else if [' ', '\t', '\n', '\x00'].contains octet then
    if splitting.current.isSome then { splitting.close with isDelimited := true } else splitting
  else if splitting.current.isNone && splitting.isDelimited then
    { splitting with isDelimited := false }
  else splitting.close

def piece (separators : Octets) (splitting : Splitting) (piece : Piece) : Splitting :=
  match piece.origin with
  | .quoted => splitting.quotedPiece piece.text
  | .arguments => { splitting.quotedPiece piece.text with followsArguments := true }
  | .literal => if piece.text.isEmpty then splitting else splitting.append (glyphs piece)
  | .expanded =>
    { piece.text.foldl (expandedOctet separators) splitting with
      isDelimited := false, followsArguments := false }

end Splitting

def separators (state : State) : Octets :=
  (state.value? "IFS".toList).getD [' ', '\t', '\n']

def split (separators : Octets) (pieces : List Piece) : List Pattern :=
  let splitting := pieces.foldl (Splitting.piece separators) {}
  (splitting.current.toList ++ splitting.ended).reverse

/-! Words. -/

/-- A field stands for the paths that it matches, or for itself. -/
def fieldTexts (state : State) (field : Pattern) : List Octets :=
  if state.hasFlag 'f' then [field.text]
  else
    match Pathname.expand state.files state.directory field with
    | [] => [field.text]
    | paths => paths

/-- The pieces of a word with its tildes. -/
def wordPieces (capture : Capture) (isApart : Bool) (word : Word) : Step (List Piece) :=
  fallbackPieces capture isApart false word

/-- The pieces of the value of an assignment. -/
def assignmentPieces (capture : Capture) (word : Word) : Step (List Piece) := do
  match word with
  | .literal text :: parts =>
    let first := tildes (← get) parts.isEmpty text
    return first ++ (← pieces capture false false parts)
  | parts => pieces capture false false parts

end Expansion

namespace Word

/-- The words that a word of a command becomes. -/
def fields (capture : Capture) (word : Word) : Step (List Octets) := do
  let pieces ← Expansion.wordPieces capture true word
  let state ← get
  return (Expansion.split (Expansion.separators state) pieces).flatMap (Expansion.fieldTexts state)

/-- The value of a word that stays one word. -/
def text (capture : Capture) (word : Word) : Step Octets := do
  return Expansion.joined (← Expansion.wordPieces capture false word)

/-- The value that an assignment gives. -/
def assignedText (capture : Capture) (word : Word) : Step Octets := do
  return Expansion.joined (← Expansion.assignmentPieces capture word)

/-- The text of a document. -/
def documentText (capture : Capture) (word : Word) : Step Octets := do
  return Expansion.joined (← Expansion.pieces capture false false word)

def pattern (capture : Capture) (word : Word) : Step Pattern := do
  return (← Expansion.wordPieces capture false word).flatMap Expansion.glyphs

end Word

end LintRepair.Shell
