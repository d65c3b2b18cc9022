/-
This file reads the inside of a JSON string, one character at a time.
-/

import LintRepair.LintReport.Basic

namespace LintRepair.LintReport

/-- What one character does to a token: the token goes on, or it is complete. -/
inductive Progress (Token : Type) where
  | more (token : Token)
  | complete
deriving Repr, DecidableEq

/-- The place within a string. Behind `\u` four bytes are taken, whatever they are, and then judged
as hexadecimal digits. A leading surrogate has to be followed by another such escape. -/
inductive QuotedText.Place where
  | plain
  | escape
  | code (bytes value : Nat) (valid : Bool) (leading : Option Nat)
  | nextEscape (leading : Nat)
  | nextCode (leading : Nat)
deriving Repr, DecidableEq

/-- A string that has been read in part; its characters stand in reverse order. -/
structure QuotedText where
  reversed : List Char
  place : QuotedText.Place
deriving Repr, DecidableEq

namespace QuotedText

def start : QuotedText :=
  ⟨[], .plain⟩

def text (quoted : QuotedText) : String :=
  String.ofList quoted.reversed.reverse

def push (quoted : QuotedText) (character : Char) : QuotedText :=
  ⟨character :: quoted.reversed, .plain⟩

def hexadecimal? (character : Char) : Option Nat :=
  if character.isDigit then some (character.toNat - '0'.toNat)
  else if 'a' ≤ character && character ≤ 'f' then some (character.toNat - 'a'.toNat + 10)
  else if 'A' ≤ character && character ≤ 'F' then some (character.toNat - 'A'.toNat + 10)
  else none

/-- The characters that a backslash and one letter stand for. -/
def escaped? : Char → Option Char
  | '"' => some '"'
  | '\\' => some '\\'
  | '/' => some '/'
  | 'b' => some '\x08'
  | 'f' => some '\x0c'
  | 'n' => some '\n'
  | 'r' => some '\r'
  | 't' => some '\t'
  | _ => none

def isLeading (value : Nat) : Bool :=
  0xD800 ≤ value && value ≤ 0xDBFF

def isTrailing (value : Nat) : Bool :=
  0xDC00 ≤ value && value ≤ 0xDFFF

/-- The end of a `\u` escape. Text that is kept has to pair its surrogates; text that is passed
over may hold any. -/
def endCode (kept : Bool) (quoted : QuotedText) (value : Nat) (leading : Option Nat) :
    Except Failure QuotedText :=
  if !kept then .ok { quoted with place := .plain }
  else
    match leading with
    | none =>
      if isTrailing value then .error .malformed
      else if isLeading value then .ok { quoted with place := .nextEscape value }
      else .ok (quoted.push (Char.ofNat value))
    | some leading =>
      if isTrailing value then
        .ok (quoted.push (Char.ofNat ((leading - 0xD800) * 0x400 + (value - 0xDC00) + 0x10000)))
      else .error .malformed

/-- One character of a string. Control characters have to be escaped. -/
def step (kept : Bool) (quoted : QuotedText) (character : Char) :
    Except Failure (Progress QuotedText) :=
  match quoted.place with
  | .plain =>
    if character = '"' then .ok .complete
    else if character = '\\' then .ok (.more { quoted with place := .escape })
    else if character < ' ' then .error .malformed
    else .ok (.more (quoted.push character))
  | .escape =>
    if character = 'u' then .ok (.more { quoted with place := .code 0 0 true none })
    else
      match escaped? character with
      | some escaped => .ok (.more (quoted.push escaped))
      | none => .error .malformed
  | .code bytes value valid leading =>
    let bytes := bytes + character.utf8Size
    let digit := hexadecimal? character
    let value := value * 16 + digit.getD 0
    let valid := valid && digit.isSome
    if bytes < 4 then .ok (.more { quoted with place := .code bytes value valid leading })
    else if valid then (endCode kept quoted value leading).map .more
    else .error .malformed
  | .nextEscape leading =>
    if character = '\\' then .ok (.more { quoted with place := .nextCode leading })
    else .error .malformed
  | .nextCode leading =>
    if character = 'u' then .ok (.more { quoted with place := .code 0 0 true (some leading) })
    else .error .malformed

end QuotedText

end LintRepair.LintReport
