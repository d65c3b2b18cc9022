/-
This file matches texts against the patterns of the shell.
-/

import LintRepair.Shell.Octets

namespace LintRepair.Shell

/-- A character of a word's value. A quoted one has no meaning in a pattern. -/
structure Glyph where
  octet : Char
  isQuoted : Bool
deriving DecidableEq

abbrev Pattern := List Glyph

namespace Pattern

/-- Bytes are compared as numbers with a sign. -/
def signed (octet : Char) : Int :=
  if octet.toNat < 128 then octet.toNat else (octet.toNat : Int) - 256

def isGraphic (octet : Char) : Bool :=
  33 ≤ octet.toNat && octet.toNat ≤ 126

def isHexadecimal (octet : Char) : Bool :=
  octet.isDigit || 'a' ≤ octet && octet ≤ 'f' || 'A' ≤ octet && octet ≤ 'F'

/-- The classes of characters by name. -/
def classes : List (String × (Char → Bool)) :=
  [("alnum", Char.isAlphanum), ("alpha", Char.isAlpha), ("blank", isBlank),
    ("cntrl", fun octet => octet.toNat < 32 || octet.toNat = 127), ("digit", Char.isDigit),
    ("graph", isGraphic), ("lower", Char.isLower),
    ("print", fun octet => isGraphic octet || octet = ' '),
    ("punct", fun octet => isGraphic octet && !octet.isAlphanum), ("space", isSpace),
    ("upper", Char.isUpper), ("xdigit", isHexadecimal)]

def isPlain (octet : Char) (glyph : Glyph) : Bool :=
  glyph.octet = octet && !glyph.isQuoted

/-- A class between colons behind an opening bracket, and the pattern behind it. -/
def class? (pattern : Pattern) : Option ((Char → Bool) × Pattern) :=
  match pattern with
  | ⟨':', false⟩ :: rest =>
    let name := rest.takeWhile fun glyph => glyph.octet.isAlpha
    let behind := rest.drop name.length
    match behind with
    | ⟨':', false⟩ :: ⟨']', false⟩ :: behind =>
      (classes.lookup (String.ofList (name.map Glyph.octet))).map fun inClass => (inClass, behind)
    | _ => none
  | _ => none

/-- Whether a character is among those in brackets, and the pattern behind the closing bracket. The
first character cannot close them. -/
def bracketed : Nat → Bool → Pattern → Char → Option (Bool × Pattern)
  | 0, _, _, _ => none
  | _, _, [], _ => none
  | rounds + 1, isFirst, glyph :: rest, octet =>
    if !isFirst && isPlain ']' glyph then some (false, rest)
    else
      match (if isPlain '[' glyph then class? rest else none) with
      | some (inClass, behind) => do
        let (found, behind) ← bracketed rounds false behind octet
        return (inClass octet || found, behind)
      | none =>
        let (glyph, rest) : Glyph × Pattern :=
          match glyph, rest with
          | ⟨'\\', false⟩, next :: rest => (next, rest)
          | glyph, rest => (glyph, rest)
        match rest with
        | ⟨'-', false⟩ :: last :: behind =>
          if isPlain ']' last then do
            let (found, behind) ← bracketed rounds false rest octet
            return (glyph.octet = octet || found, behind)
          else
            let (last, behind) : Glyph × Pattern :=
              match last, behind with
              | ⟨'\\', false⟩, next :: behind => (next, behind)
              | last, behind => (last, behind)
            do
              let (found, behind) ← bracketed rounds false behind octet
              let within :=
                signed glyph.octet ≤ signed octet && signed octet ≤ signed last.octet
              return (within || found, behind)
        | _ => do
          let (found, behind) ← bracketed rounds false rest octet
          return (glyph.octet = octet || found, behind)

/-- Whether a pattern matches a whole text. Every round passes a character of the one or the
other. -/
def matchesWithin : Nat → Pattern → Octets → Bool
  | 0, _, _ => false
  | _, [], text => text.isEmpty
  | rounds + 1, glyph :: pattern, text =>
    if isPlain '*' glyph then
      matchesWithin rounds pattern text ||
        match text with
        | [] => false
        | _ :: text => matchesWithin rounds (glyph :: pattern) text
    else
      match text with
      | [] => false
      | octet :: text =>
        if isPlain '?' glyph then matchesWithin rounds pattern text
        else if isPlain '[' glyph then
          let (isInverted, inside) : Bool × Pattern :=
            match pattern with
            | ⟨'!', false⟩ :: inside => (true, inside)
            | inside => (false, inside)
          match bracketed (inside.length + 1) true inside octet with
          | some (found, behind) => found != isInverted && matchesWithin rounds behind text
          | none => octet = '[' && matchesWithin rounds pattern text
        else if isPlain '\\' glyph then
          match pattern with
          | next :: pattern => next.octet = octet && matchesWithin rounds pattern text
          | [] => octet = '\\' && text.isEmpty
        else glyph.octet = octet && matchesWithin rounds pattern text

/-- Whether a pattern matches a whole text. -/
def isMatch (pattern : Pattern) (text : Octets) : Bool :=
  matchesWithin (pattern.length + text.length + 1) pattern text

/-- Whether a closing bracket follows an opening one, behind at least one character. -/
def isClosed (pattern : Pattern) : Bool :=
  match pattern with
  | ⟨'!', false⟩ :: inside => (inside.drop 1).any (isPlain ']')
  | inside => (inside.drop 1).any (isPlain ']')

/-- Whether a pattern stands for other texts than itself. -/
def hasMeaning : Pattern → Bool
  | [] => false
  | ⟨'\\', false⟩ :: _ :: pattern => hasMeaning pattern
  | glyph :: pattern =>
    isPlain '*' glyph || isPlain '?' glyph || (isPlain '[' glyph && isClosed pattern) ||
      hasMeaning pattern

def text (pattern : Pattern) : Octets :=
  pattern.map Glyph.octet

/-- The ways to cut a text in two, the shortest first part first. -/
def cuts (text : Octets) : List (Octets × Octets) :=
  (List.range (text.length + 1)).map fun place => (text.take place, text.drop place)

/-- The text without the part at its start or its end that the pattern matches. -/
def trim (pattern : Pattern) (fromEnd longest : Bool) (text : Octets) : Octets :=
  let cuts := cuts text
  if fromEnd then
    let ordered := if longest then cuts else cuts.reverse
    ((ordered.find? fun (_, last) => pattern.isMatch last).map Prod.fst).getD text
  else
    let ordered := if longest then cuts.reverse else cuts
    ((ordered.find? fun (first, _) => pattern.isMatch first).map Prod.snd).getD text

end Pattern

end LintRepair.Shell
