/-
This file reads integers of 64 bits.
-/

import LintRepair.Shell.Octets
import LintRepair.Text.Numeral

namespace LintRepair.Shell

/-- What was read of a text: the value, the text behind it, and whether the value did not fit. Where
nothing can be read, the whole text is behind. -/
structure IntegerReading where
  value : Int
  behind : Octets
  isTooLarge : Bool := false

def digitValue? (octet : Char) : Option Nat :=
  if octet.isDigit then some (octet.toNat - '0'.toNat)
  else if 'a' ≤ octet && octet ≤ 'z' then some (octet.toNat - 'a'.toNat + 10)
  else if 'A' ≤ octet && octet ≤ 'Z' then some (octet.toNat - 'A'.toNat + 10)
  else none

/-- The digits of a base at the start of a text, and what follows them. -/
def digitsOf (base : Nat) : Octets → List Nat × Octets
  | [] => ([], [])
  | octet :: text =>
    match (digitValue? octet).filter (· < base) with
    | none => ([], octet :: text)
    | some digit =>
      let (digits, behind) := digitsOf base text
      (digit :: digits, behind)

def ofDigits (base : Nat) (digits : List Nat) : Nat :=
  digits.foldl (fun value digit => value * base + digit) 0

/-- The base that a letter behind a zero announces. -/
def markedBase? (mark : Char) : Option Nat :=
  if mark = 'x' || mark = 'X' then some 16
  else if mark = 'b' || mark = 'B' then some 2
  else none

/-- The value of an unsigned numeral, if there is one, and the text behind it. Base zero asks for the
marks of the bases sixteen, two and eight. -/
def basedDigits (base : Nat) (text : Octets) : Option Nat × Octets :=
  let marked : Option (Nat × Octets) :=
    match text with
    | '0' :: mark :: digits =>
      match markedBase? mark with
      | none => none
      | some marked =>
        if (base = 0 || base = marked) && !(digitsOf marked digits).1.isEmpty then
          some (marked, digits)
        else none
    | _ => none
  let (base, text) :=
    match marked with
    | some (base, digits) => (base, digits)
    | none => (if base = 0 then if text.head? = some '0' then 8 else 10 else base, text)
  let (digits, behind) := digitsOf base text
  (if digits.isEmpty then none else some (ofDigits base digits), behind)

/-- A sign, and the text behind it. -/
def signOf (text : Octets) : Bool × Octets :=
  match text with
  | '-' :: text => (true, text)
  | '+' :: text => (false, text)
  | text => (false, text)

/-- The limit of integers with a sign. -/
def signedLimit : Nat := 9223372036854775808

/-- White space, a sign and digits. A value that does not fit becomes the nearest one that does. -/
def readInteger (base : Nat) (text : Octets) : IntegerReading :=
  let (isNegative, unsigned) := signOf (text.dropWhile isSpace)
  match basedDigits base unsigned with
  | (some value, behind) =>
    if isNegative then
      if signedLimit < value then ⟨-signedLimit, behind, true⟩ else ⟨-value, behind, false⟩
    else if signedLimit ≤ value then ⟨signedLimit - 1, behind, true⟩
    else ⟨value, behind, false⟩
  | _ => ⟨0, text, false⟩

/-- The same without a sign: a minus sign counts down from the limit. -/
def readNatural (base : Nat) (text : Octets) : IntegerReading :=
  let (isNegative, unsigned) := signOf (text.dropWhile isSpace)
  match basedDigits base unsigned with
  | (some value, behind) =>
    if Text.wordLimit ≤ value then ⟨Text.wordLimit - 1, behind, true⟩
    else if isNegative && value != 0 then ⟨Text.wordLimit - value, behind, false⟩
    else ⟨value, behind, false⟩
  | _ => ⟨0, text, false⟩

/-- The integer of 64 bits that a value is cut down to. -/
def wrapped (value : Int) : Int :=
  value.bmod 18446744073709551616

/-- A decimal integer with white space around it. -/
def wholeInteger? (text : Octets) : Option Int :=
  let reading := readInteger 10 text
  if reading.isTooLarge || reading.behind.length = text.length ||
      !(reading.behind.all isSpace) then none
  else some reading.value

/-- A number without a sign. -/
def plainNumber? (text : Octets) : Option Nat :=
  if text.isEmpty || !text.all Char.isDigit then none
  else (wholeInteger? text).map Int.toNat

end LintRepair.Shell
