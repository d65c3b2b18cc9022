/-
This file writes texts in quotation marks.
-/

import LintRepair.Shell.Octets

namespace LintRepair.Shell

/-- A text that the shell reads back as one word. Every round passes a run of marks. -/
def quotedWithin : Nat → Octets → Octets
  | 0, _ => []
  | rounds + 1, text =>
    let plain := text.takeWhile (· != '\'')
    let marks := (text.drop plain.length).takeWhile (· == '\'')
    let behind := text.drop (plain.length + marks.length)
    let first := '\'' :: plain ++ ['\'']
    if marks.isEmpty then first
    else
      let second := '"' :: marks ++ ['"']
      if behind.isEmpty then first ++ second else first ++ second ++ quotedWithin rounds behind

def quoted (text : Octets) : Octets :=
  quotedWithin (text.length + 1) text

/-! The names of files in messages of other programs. -/

def isPrintable (octet : Char) : Bool :=
  32 ≤ octet.toNat && octet.toNat ≤ 126

/-- A byte as a backslash and three digits, or as a letter. -/
def escapedByte (octet : Char) : Octets :=
  match [('\x07', 'a'), ('\x08', 'b'), ('\x0c', 'f'), ('\n', 'n'), ('\r', 'r'), ('\t', 't'),
      ('\x0b', 'v')].lookup octet with
  | some letter => ['\\', letter]
  | none =>
    let digits := Nat.toDigits 8 octet.toNat
    '\\' :: List.replicate (3 - digits.length) '0' ++ digits

/-- The part of a name between quotation marks. Bytes that cannot be printed stand outside of them. -/
def quotedName : Bool → Octets → Octets
  | _, [] => []
  | isEscaping, octet :: rest =>
    if isPrintable octet then
      let before := if isEscaping then "''".toList else []
      before ++ (if octet = '\'' then "'\\''".toList else [octet]) ++ quotedName false rest
    else
      let before := if isEscaping then [] else "'$'".toList
      before ++ escapedByte octet ++ quotedName true rest

/-- A name in quotation marks. -/
def markedName (name : Octets) : Octets :=
  if name.contains '\'' && name.all fun octet =>
      octet.isAlphanum || " '%+,-./:@_]".toList.contains octet then
    '"' :: name ++ ['"']
  else '\'' :: quotedName false name ++ ['\'']

/-- A name as it is, if nothing in it could be misread. -/
def shownName (name : Octets) : Octets :=
  let isMisread := fun (octet : Char) =>
    !isPrintable octet || " !\"$&'()*:;<=>?[\\^`|".toList.contains octet
  let first := name.head?.getD ' '
  if name.isEmpty || name.any isMisread || first = '#' || first = '~' ||
      name = ['\x7b'] || name = ['\x7d'] then
    markedName name
  else name

end LintRepair.Shell
