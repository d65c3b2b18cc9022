/-
This file holds the escapes in texts and the command that writes its arguments.
-/

import LintRepair.Shell.Reply

namespace LintRepair.Shell.Utility

def isOctal (octet : Char) : Bool :=
  '0' ≤ octet && octet ≤ '7'

/-- The character for the text behind a backslash, and what follows. Before another text the backslash
stands for itself. -/
def escape (text : Octets) : Char × Octets :=
  match text with
  | [] => ('\\', [])
  | octet :: rest =>
    if isOctal octet then
      let digits := (text.take 3).takeWhile isOctal
      let value := digits.foldl (fun value digit => value * 8 + (digit.toNat - '0'.toNat)) 0
      (Char.ofNat (value % 256), text.drop digits.length)
    else
      match [('\\', '\\'), ('a', '\x07'), ('b', '\x08'), ('e', '\x1b'), ('f', '\x0c'), ('n', '\n'),
          ('r', '\r'), ('t', '\t'), ('v', '\x0b')].lookup octet with
      | some character => (character, rest)
      | none => ('\\', text)

/-- A text with its escapes replaced, and whether an escape has stopped the output. Every round passes
a character. -/
def escapedWithin : Nat → Octets → Octets × Bool
  | 0, _ => ([], false)
  | _, [] => ([], false)
  | _, '\\' :: 'c' :: _ => ([], true)
  | rounds + 1, '\\' :: text =>
    let digits :=
      match text with
      | '0' :: digit :: _ => if isOctal digit then text.drop 1 else text
      | _ => text
    let (character, behind) := escape digits
    let (rest, isStopped) := escapedWithin rounds behind
    (character :: rest, isStopped)
  | rounds + 1, character :: text =>
    let (rest, isStopped) := escapedWithin rounds text
    (character :: rest, isStopped)

def escaped (text : Octets) : Octets × Bool :=
  escapedWithin (text.length + 1) text

/-- The arguments with spaces between them and a text behind them. -/
def echoed (ending : Octets) : List Octets → Octets
  | [] => ending
  | argument :: arguments =>
    let (text, isStopped) := escaped argument
    if isStopped then text
    else
      match arguments with
      | [] => text ++ ending
      | _ => text ++ ' ' :: echoed ending arguments

def echo (arguments : List Octets) : Reply :=
  match arguments with
  | ['-', 'n'] :: rest => { output := echoed [] rest }
  | _ => { output := echoed ['\n'] arguments }

end LintRepair.Shell.Utility
