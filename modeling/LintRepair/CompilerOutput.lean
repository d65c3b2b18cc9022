/-
This file reads the type checker's messages about names that are declared but never read.
-/

import LintRepair.Diagnostic.Basic
import LintRepair.Text.LossyDecoding
import LintRepair.Text.Numeral
import LintRepair.Text.Reader

namespace LintRepair.CompilerOutput

open Text Unicode

/-- The rule under which these diagnostics are reported. -/
def unusedParameterRule : String := "unused parameter"

/-- What a message says behind the path: the numerals of its place, its code and the name. -/
structure UnreadName where
  line : List Char
  column : List Char
  code : List Char
  name : List Char
deriving Repr, DecidableEq

/-- Letters and then digits. -/
def code? (text : List Char) : Option (List Char × List Char) := do
  let (letters, text) ← run? Char.isAlpha text
  let (digits, text) ← run? isDecimalDigit text
  return (letters ++ digits, text)

def unreadEnding : List Char :=
  "' is declared but its value is never read.".toList

/-- The part of a message behind the path. More text may follow it. -/
def unreadName? (text : List Char) : Option UnreadName := do
  let text ← literal? ['('] text
  let (line, text) ← run? isDecimalDigit text
  let text ← literal? [','] text
  let (column, text) ← run? isDecimalDigit text
  let text ← literal? "): error ".toList text
  let (code, text) ← code? text
  let text ← literal? ": '".toList text
  let (name, text) ← word? text
  let _ ← literal? unreadEnding text
  return ⟨line, column, code, name⟩

/-- The path is the shortest non-empty part of one line behind which a message goes on. The first
argument holds the characters already passed, the last one first. -/
def locate? : List Char → List Char → Option (List Char × UnreadName)
  | _, [] => none
  | passed, character :: text =>
    match if passed.isEmpty then none else unreadName? (character :: text) with
    | some unread => some (passed.reverse, unread)
    | none => if character = '\n' then none else locate? (character :: passed) text

/-- The diagnostic of one line, if it is a message about an unread name. The line numeral has to
be a number of 64 bits; a column numeral that is none counts as absent. -/
def diagnostic? (text : List Char) : Option Diagnostic := do
  let (path, unread) ← locate? [] text
  let line ← numeral? wordLimit unread.line
  return {
    file := ⟨String.ofList path⟩
    line
    column := numeral? wordLimit unread.column
    rule := unusedParameterRule
    message := String.ofList (unread.code ++ ": '".toList ++ unread.name ++ unreadEnding)
    symbol := some (String.ofList unread.name) }

/-- A line without the carriage returns at its end. -/
def withoutReturns (line : List Char) : List Char :=
  (line.reverse.dropWhile (· = '\r')).reverse

/-- The diagnostics of a whole output. Malformed bytes spoil no line but their own. -/
def diagnostics (bytes : List UInt8) : List Diagnostic :=
  (separate 0x0A bytes).filterMap fun line => diagnostic? (withoutReturns (decodeLossily line))

end LintRepair.CompilerOutput
