/-
This file reads the four kinds of TOML strings. A basic string is enclosed in double quotation marks
and knows escapes; a literal string is enclosed in single ones and knows none. Both may extend over
several lines when they are enclosed in three marks.
-/

namespace LintRepair.Toml

/-- A character that may stand in a string or a comment as it is. -/
def isTextCharacter (character : Char) : Bool :=
  character == '\t' || ' ' ≤ character && character != '\x7f'

def isInlineSpace (character : Char) : Bool :=
  character == ' ' || character == '\t'

namespace QuotedText

def hexadecimal? (digit : Char) : Option Nat :=
  if digit.isDigit then some (digit.toNat - '0'.toNat)
  else if 'a' ≤ digit && digit ≤ 'f' then some (digit.toNat - 'a'.toNat + 10)
  else if 'A' ≤ digit && digit ≤ 'F' then some (digit.toNat - 'A'.toNat + 10)
  else none

/-- A code point that is a character; surrogates are none. -/
def character? (value : Nat) : Option Char :=
  if value.isValidChar then some (Char.ofNat value) else none

def escaped? : Char → Option Char
  | 'b' => some '\x08'
  | 't' => some '\t'
  | 'n' => some '\n'
  | 'f' => some '\x0c'
  | 'r' => some '\r'
  | '"' => some '"'
  | '\\' => some '\\'
  | _ => none

/-- The place within a string. Behind `\u` four digits are missing and behind `\U` eight. The places
from `quotes` on exist only in a string of several lines: a run of quotation marks, a carriage return
that needs its line feed, a backslash before the end of a line, and the white space that such a
backslash removes. -/
inductive Place where
  | plain
  | escape
  | code (missing value : Nat)
  | quotes (count : Nat)
  | carriageReturn (removed : Bool)
  | blankToLineEnd
  | removing
deriving Repr, DecidableEq

/-- The quotation mark that encloses a string, and whether the string may extend over several
lines. -/
structure Kind where
  mark : Char
  multiline : Bool
deriving Repr, DecidableEq

/-- Single quotation marks enclose a text without escapes. -/
def Kind.hasEscapes (kind : Kind) : Bool :=
  kind.mark = '"'

/-- What a character adds to the text, and the place behind it. -/
abbrev Step := List Char × Place

def stepPlain (kind : Kind) (character : Char) : Option Step :=
  if character = '\\' && kind.hasEscapes then some ([], .escape)
  else if isTextCharacter character then some ([character], .plain)
  else if !kind.multiline then none
  else if character = '\n' then some (['\n'], .plain)
  else if character = '\r' then some ([], .carriageReturn false)
  else none

def stepEscape (kind : Kind) (character : Char) : Option Step :=
  if character = 'u' then some ([], .code 4 0)
  else if character = 'U' then some ([], .code 8 0)
  else
    match escaped? character with
    | some escaped => some ([escaped], .plain)
    | none =>
      if !kind.multiline then none
      else if isInlineSpace character then some ([], .blankToLineEnd)
      else if character = '\n' then some ([], .removing)
      else if character = '\r' then some ([], .carriageReturn true)
      else none

def stepCode (missing value : Nat) (character : Char) : Option Step := do
  let value := value * 16 + (← hexadecimal? character)
  if 1 < missing then return ([], .code (missing - 1) value)
  else return ([← character? value], .plain)

/-- One character that is not the enclosing mark in a plain place or after another mark. -/
def step (kind : Kind) (place : Place) (character : Char) : Option Step :=
  match place with
  | .plain | .quotes _ => stepPlain kind character
  | .escape => stepEscape kind character
  | .code missing value => stepCode missing value character
  | .carriageReturn removed =>
    if character = '\n' then some (if removed then ([], .removing) else (['\n'], .plain)) else none
  | .blankToLineEnd =>
    if isInlineSpace character then some ([], .blankToLineEnd)
    else if character = '\n' then some ([], .removing)
    else if character = '\r' then some ([], .carriageReturn true)
    else none
  | .removing =>
    if isInlineSpace character || character = '\n' then some ([], .removing)
    else if character = '\r' then some ([], .carriageReturn true)
    else stepPlain kind character

/-- Whether a mark at this place may end the string. -/
def Place.mayEnd : Place → Bool
  | plain | removing => true
  | escape | code _ _ | quotes _ | carriageReturn _ | blankToLineEnd => false

/-- The text up to the enclosing mark, and what follows the mark. -/
def readLine (kind : Kind) : Place → List Char → Option (List Char × List Char)
  | _, [] => none
  | place, character :: rest =>
    if character = kind.mark && place.mayEnd then some ([], rest)
    else do
      let (added, place) ← step kind place character
      let (text, rest) ← readLine kind place rest
      return (added ++ text, rest)

/-- The text up to three enclosing marks. Up to two further marks may stand before them, so a run of
marks ends the string when it has three, four or five of them. -/
def readLines (kind : Kind) : Place → List Char → Option (List Char × List Char)
  | .quotes count, [] =>
    if 3 ≤ count then some (List.replicate (count - 3) kind.mark, []) else none
  | _, [] => none
  | .quotes count, character :: rest =>
    if character = kind.mark then
      if count = 4 then some ([kind.mark, kind.mark], rest)
      else readLines kind (.quotes (count + 1)) rest
    else if 3 ≤ count then
      some (List.replicate (count - 3) kind.mark, character :: rest)
    else do
      let (added, place) ← stepPlain kind character
      let (text, rest) ← readLines kind place rest
      return (List.replicate count kind.mark ++ added ++ text, rest)
  | place, character :: rest =>
    if character = kind.mark && place.mayEnd then readLines kind (.quotes 1) rest
    else do
      let (added, place) ← step kind place character
      let (text, rest) ← readLines kind place rest
      return (added ++ text, rest)

/-- A line end directly behind the opening marks is not part of the text. -/
def withoutFirstLineEnd : List Char → List Char
  | '\n' :: rest => rest
  | '\r' :: '\n' :: rest => rest
  | text => text

/-- A string on one line, as a key or a value. -/
def line? : List Char → Option (String × List Char)
  | [] => none
  | mark :: text =>
    if mark = '"' || mark = '\'' then do
      let (text, rest) ← readLine ⟨mark, false⟩ .plain text
      return (String.ofList text, rest)
    else none

/-- A string of either form. -/
def read? : List Char → Option (String × List Char)
  | first :: second :: third :: text =>
    if (first = '"' || first = '\'') && second = first && third = first then do
      let (text, rest) ← readLines ⟨first, true⟩ .plain (withoutFirstLineEnd text)
      return (String.ofList text, rest)
    else line? (first :: second :: third :: text)
  | text => line? text

end QuotedText

end LintRepair.Toml
