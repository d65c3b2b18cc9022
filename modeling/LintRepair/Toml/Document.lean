/-
This file reads a TOML document.
-/

import LintRepair.Toml.QuotedText
import LintRepair.Toml.Scalar
import LintRepair.Toml.Table

namespace LintRepair.Toml

open Text

def skipInlineSpace (text : List Char) : List Char :=
  text.dropWhile isInlineSpace

/-- A line ends with a line feed, which may follow a carriage return. -/
def lineEnd? : List Char → Option (List Char)
  | '\n' :: text => some text
  | '\r' :: '\n' :: text => some text
  | _ => none

/-- A number sign begins a comment, which extends to the end of the line. -/
def skipComment : List Char → List Char
  | '#' :: text => text.dropWhile isTextCharacter
  | text => text

/-- The place between the items of an array. -/
inductive Gap where
  | space
  | comment
  | carriageReturn
deriving Repr, DecidableEq

/-- White space, line ends and comments. What ends a comment in the wrong way is left in the text,
where no item begins with it. -/
def skipGap : Gap → List Char → List Char
  | .carriageReturn, [] => ['\r']
  | _, [] => []
  | .space, character :: text =>
    if isInlineSpace character || character = '\n' then skipGap .space text
    else if character = '#' then skipGap .comment text
    else if character = '\r' then skipGap .carriageReturn text
    else character :: text
  | .comment, character :: text =>
    if isTextCharacter character then skipGap .comment text
    else if character = '\n' then skipGap .space text
    else if character = '\r' then skipGap .carriageReturn text
    else character :: text
  | .carriageReturn, character :: text =>
    if character = '\n' then skipGap .space text else '\r' :: character :: text

def isBareKeyCharacter (character : Char) : Bool :=
  character.isAlphanum || character == '_' || character == '-'

/-- One part of a key: a string on one line, or bare letters, digits, underscores and hyphens. -/
def keyPart? (text : List Char) : Option (String × List Char) :=
  match text with
  | '"' :: _ => QuotedText.line? text
  | '\'' :: _ => QuotedText.line? text
  | _ => (run? isBareKeyCharacter text).map fun (part, text) => (String.ofList part, text)

/-- Parts between dots. There is room for a limited number of parts. The last part is returned
apart from the others. -/
def key? : Nat → List Char → Option ((List String × String) × List Char)
  | 0, _ => none
  | room + 1, text => do
    let (part, text) ← keyPart? (skipInlineSpace text)
    match skipInlineSpace text with
    | '.' :: text => do
      let ((path, key), text) ← key? room text
      return ((part :: path, key), text)
    | text => return (([], part), text)

/-- A key has fewer than eighty parts, and values are nested less than eighty deep. -/
def nestingRoom : Nat := 79

abbrev ValueReader := List Char → Option (Value × List Char)

/-- A key, an equals sign and a value. -/
def pair? (value? : ValueReader) (text : List Char) : Option (Pair × List Char) := do
  let ((path, key), text) ← key? nestingRoom text
  let text ← literal? ['='] text
  let (value, text) ← value? (skipInlineSpace text)
  return (⟨path, key, value⟩, text)

/-- The items of an array behind its opening bracket or behind a comma. Every round takes at least
one character, so the length of the text bounds the rounds. -/
def items? (value? : ValueReader) : Nat → List Char → Option (List Value × List Char)
  | 0, _ => none
  | rounds + 1, text =>
    match skipGap .space text with
    | ']' :: text => some ([], text)
    | text => do
      let (item, text) ← value? text
      match skipGap .space text with
      | ']' :: text => return ([item], text)
      | ',' :: text => do
        let (items, text) ← items? value? rounds text
        return (item :: items, text)
      | _ => none

/-- The pairs of an inline table, which stand on one line. -/
def inlinePairs? (value? : ValueReader) : Nat → List Char → Option (List Pair × List Char)
  | 0, _ => none
  | rounds + 1, text => do
    let (pair, text) ← pair? value? text
    match skipInlineSpace text with
    | '}' :: text => return ([pair], text)
    | ',' :: text => do
      let (pairs, text) ← inlinePairs? value? rounds text
      return (pair :: pairs, text)
    | _ => none

def inlineTable? (value? : ValueReader) (text : List Char) : Option (Value × List Char) :=
  match skipInlineSpace text with
  | '}' :: text => some (.table .inline [], text)
  | text => do
    let (pairs, rest) ← inlinePairs? value? (text.length + 1) text
    return (.table .inline (← tableOfPairs pairs), rest)

/-- A value that is neither an array nor an inline table. -/
def simpleValue? : ValueReader := fun text =>
  match QuotedText.read? text with
  | some (string, text) => some (.text string, text)
  | none => (Scalar.read? text).map fun text => (.other, text)

/-- A value with room for a limited number of collections around each other. -/
def value? : Nat → ValueReader
  | 0, text => simpleValue? text
  | room + 1, text =>
    match text with
    | '[' :: text => do
      let (items, rest) ← items? (value? room) (text.length + 1) text
      return (.array items, rest)
    | '{' :: text => inlineTable? (value? room) text
    | _ => simpleValue? text

/-- The end of a line, behind spaces and a comment. The last line needs no line end. -/
def endLine? (text : List Char) : Option (List Char) :=
  match skipComment (skipInlineSpace text) with
  | [] => some []
  | text => lineEnd? text

/-- A header in single or double brackets, or a pair, with the end of its line. -/
def statement? (text : List Char) : Option (Statement × List Char) :=
  match text with
  | '[' :: '[' :: text => do
    let ((path, key), text) ← key? nestingRoom text
    let text ← literal? [']', ']'] text
    return (.element path key, ← endLine? text)
  | '[' :: text => do
    let ((path, key), text) ← key? nestingRoom text
    let text ← literal? [']'] text
    return (.table path key, ← endLine? text)
  | text => do
    let (pair, text) ← pair? (value? nestingRoom) text
    return (.pair pair, ← endLine? text)

/-- The statements of a text; lines without one are passed over. Every round takes at least one
character. -/
def statements? : Nat → List Char → Option (List Statement)
  | 0, _ => none
  | rounds + 1, text =>
    match skipInlineSpace text with
    | [] => some []
    | character :: text =>
      if character = '\n' || character = '\r' || character = '#' then do
        statements? rounds (← endLine? (character :: text))
      else do
        let (statement, text) ← statement? (character :: text)
        let statements ← statements? rounds text
        return statement :: statements

/-- A byte order mark may stand before the document. -/
def withoutByteOrderMark : List Char → List Char
  | '\uFEFF' :: text => text
  | text => text

/-- The root table of a document, if the text is one. -/
def read? (text : List Char) : Option Entries := do
  let text := withoutByteOrderMark text
  let document ← Document.ofStatements (← statements? (text.length + 1) text)
  return document.root

end LintRepair.Toml
