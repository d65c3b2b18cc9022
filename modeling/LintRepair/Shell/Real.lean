/-
This file reads and writes binary numbers of 64 bits.
-/

import LintRepair.Shell.Integer

namespace LintRepair.Shell

/-- A finite magnitude is a mantissa times a power of two. -/
inductive Magnitude where
  | finite (mantissa : Nat) (exponent : Int)
  | infinite
  | notANumber
deriving DecidableEq

structure Real where
  isNegative : Bool
  magnitude : Magnitude
deriving DecidableEq

namespace Real

/-! Rounding. -/

/-- The nearest natural number to a quotient. A half goes to the even neighbour. -/
def roundQuotient (numerator denominator : Nat) : Nat :=
  let quotient := numerator / denominator
  let rest := 2 * (numerator % denominator)
  if denominator < rest || (rest = denominator && quotient % 2 = 1) then quotient + 1 else quotient

/-- A quotient divided by a power of a base, as a quotient. -/
def scaleDown (base : Nat) (exponent : Int) (numerator denominator : Nat) : Nat × Nat :=
  if 0 ≤ exponent then (numerator, denominator * Nat.pow base exponent.toNat)
  else (numerator * Nat.pow base (-exponent).toNat, denominator)

/-- The smallest exponent of two, and the bits of a mantissa. -/
def lowestExponent : Int := -1074
def mantissaLimit : Nat := 9007199254740992

/-- The nearest number to a quotient, and whether it lies out of the range of exact numbers. -/
def nearest (numerator denominator : Nat) : Magnitude × Bool :=
  if numerator = 0 then (.finite 0 0, false)
  else
    let guess : Int := (numerator.log2 : Int) - denominator.log2 - 52
    let fits := fun (exponent : Int) =>
      let (top, bottom) := scaleDown 2 exponent numerator denominator
      decide (top / bottom < mantissaLimit)
    let exponent := if fits (guess - 1) then guess - 1 else if fits guess then guess else guess + 1
    let isSmall := exponent < lowestExponent
    let exponent := max exponent lowestExponent
    let (top, bottom) := scaleDown 2 exponent numerator denominator
    let rounded := roundQuotient top bottom
    let (mantissa, exponent) :=
      if rounded = mantissaLimit then (rounded / 2, exponent + 1) else (rounded, exponent)
    if 0 < exponent + (mantissa.log2 : Int) - 1023 then (.infinite, true)
    else (.finite mantissa exponent, isSmall && top % bottom != 0)

/-! Reading. -/

/-- What was read of a text, as for integers. -/
structure Reading where
  value : Real
  behind : Octets
  isOutOfRange : Bool := false

/-- Digits with a point among them: all digits, and how many stand behind the point. -/
def pointedDigits (base : Nat) (text : Octets) : List Nat × Nat × Octets :=
  let (whole, behind) := digitsOf base text
  match behind with
  | '.' :: rest =>
    let (part, behindPart) := digitsOf base rest
    if whole.isEmpty && part.isEmpty then ([], 0, text) else (whole ++ part, part.length, behindPart)
  | _ => (whole, 0, behind)

/-- An exponent behind its letter; without digits there is none. -/
def exponentOf (letter : Char) (text : Octets) : Int × Octets :=
  match text with
  | first :: rest =>
    if first.toLower = letter then
      let (isNegative, unsigned) := signOf rest
      match digitsOf 10 unsigned with
      | ([], _) => (0, text)
      | (digits, behind) =>
        let value := ofDigits 10 digits
        (if isNegative then -(value : Int) else value, behind)
    else (0, text)
  | [] => (0, text)

/-- The longest exponent that is worked with; a longer one is out of range for every mantissa of
usual length. -/
def exponentLimit : Nat := 100000

def clamped (exponent : Int) : Int :=
  max (-(exponentLimit : Int)) (min exponent exponentLimit)

def startsWith (name : String) (text : Octets) : Bool :=
  name.toList.isPrefixOf (text.map Char.toLower)

/-- A number without a sign, and the text behind it. -/
def readMagnitude? (text : Octets) : Option (Magnitude × Bool × Octets) :=
  if startsWith "infinity" text then some (.infinite, false, text.drop 8)
  else if startsWith "inf" text then some (.infinite, false, text.drop 3)
  else if startsWith "nan" text then
    let behind := text.drop 3
    match behind with
    | '(' :: inside =>
      let name := inside.takeWhile isNameCharacter
      match inside.drop name.length with
      | ')' :: behindName => some (.notANumber, false, behindName)
      | _ => some (.notANumber, false, behind)
    | _ => some (.notANumber, false, behind)
  else
    let hexadecimal : Option (List Nat × Nat × Octets) :=
      match text with
      | '0' :: mark :: rest =>
        if mark = 'x' || mark = 'X' then
          let (digits, places, behind) := pointedDigits 16 rest
          if digits.isEmpty then none else some (digits, places, behind)
        else none
      | _ => none
    match hexadecimal with
    | some (digits, places, behind) =>
      let (exponent, behind) := exponentOf 'p' behind
      let exponent := clamped exponent - 4 * places
      let (top, bottom) := scaleDown 2 (-exponent) (ofDigits 16 digits) 1
      let (magnitude, isOutOfRange) := nearest top bottom
      some (magnitude, isOutOfRange, behind)
    | none =>
      let (digits, places, behind) := pointedDigits 10 text
      if digits.isEmpty then none
      else
        let (exponent, behind) := exponentOf 'e' behind
        let exponent := clamped exponent - places
        let value := ofDigits 10 digits
        let isFar := 5000 < (if value = 0 then 0 else exponent.natAbs - digits.length)
        if isFar then
          some (if 0 < exponent then .infinite else .finite 0 0, true, behind)
        else
          let (top, bottom) := scaleDown 10 (if value = 0 then 0 else -exponent) value 1
          let (magnitude, isOutOfRange) := nearest top bottom
          some (magnitude, isOutOfRange, behind)

/-- White space, a sign and a number. Where nothing can be read, the whole text is behind. -/
def read (text : Octets) : Reading :=
  let (isNegative, unsigned) := signOf (text.dropWhile isSpace)
  match readMagnitude? unsigned with
  | none => ⟨⟨false, .finite 0 0⟩, text, false⟩
  | some (magnitude, isOutOfRange, behind) => ⟨⟨isNegative, magnitude⟩, behind, isOutOfRange⟩

/-! Writing. -/

/-- A finite magnitude as a quotient. -/
def quotient (mantissa : Nat) (exponent : Int) : Nat × Nat :=
  scaleDown 2 (-exponent) mantissa 1

def zeros (count : Nat) : Octets :=
  List.replicate count '0'

/-- At least a number of digits. -/
def digitsWithin (count value : Nat) : Octets :=
  let digits := decimal value
  zeros (count - digits.length) ++ digits

/-- The digits before and behind a point, which is left out before nothing unless it is asked for. -/
def pointed (asksPoint : Bool) (whole part : Octets) : Octets :=
  if part.isEmpty && !asksPoint then whole else whole ++ '.' :: part

/-- Digits with a fixed number of them behind the point. -/
def fixed (asksPoint : Bool) (places : Nat) (mantissa : Nat) (exponent : Int) : Octets :=
  let (top, bottom) := quotient mantissa exponent
  let value := roundQuotient (top * Nat.pow 10 places) bottom
  let digits := digitsWithin (places + 1) value
  let count := digits.length - places
  pointed asksPoint (digits.take count) (digits.drop count)

/-- The power of ten at the first digit of a quotient. -/
def decimalExponent (top bottom : Nat) : Int :=
  if top = 0 then 0
  else if bottom ≤ top then (decimal (top / bottom)).length - 1
  else
    let guess : Int := ((bottom.log2 : Int) - top.log2) * 30103 / 100000
    let powers := (List.range 4).map fun (offset : Nat) => (guess - 1 + offset).toNat
    let power := (powers.find? fun power => decide (bottom ≤ top * Nat.pow 10 power)).getD 0
    Int.negOfNat power

/-- The digits of a number in scientific notation and its exponent. -/
def scientificDigits (places : Nat) (mantissa : Nat) (exponent : Int) : Octets × Int :=
  let (top, bottom) := quotient mantissa exponent
  let power := decimalExponent top bottom
  let (scaledTop, scaledBottom) := scaleDown 10 (power - places) top bottom
  let digits := digitsWithin (places + 1) (roundQuotient scaledTop scaledBottom)
  if digits.length = places + 1 then (digits, power) else (digits.take (places + 1), power + 1)

def signed (value : Int) : Octets :=
  (if value < 0 then '-' else '+') :: decimal value.natAbs

/-- An exponent with a sign and at least two digits. -/
def scientificExponent (power : Int) : Octets :=
  'e' :: (if power < 0 then '-' else '+') :: digitsWithin 2 power.natAbs

def scientific (asksPoint : Bool) (places : Nat) (mantissa : Nat) (exponent : Int) : Octets :=
  let (digits, power) := scientificDigits places mantissa exponent
  pointed asksPoint (digits.take 1) (digits.drop 1) ++ scientificExponent power

def withoutZeros (text : Octets) : Octets :=
  (text.reverse.dropWhile (· == '0')).reverse

/-- Fixed or scientific notation, whichever is shorter, with a number of digits in all. Zeros at the
end are left out unless the point is asked for. -/
def general (asksPoint : Bool) (count : Nat) (mantissa : Nat) (exponent : Int) : Octets :=
  let count := max count 1
  let (digits, power) := scientificDigits (count - 1) mantissa exponent
  let trimmed := fun (part : Octets) => if asksPoint then part else withoutZeros part
  if -4 ≤ power && power < count then
    if 0 ≤ power then
      let whole := power.toNat + 1
      pointed asksPoint (digits.take whole) (trimmed (digits.drop whole))
    else pointed asksPoint ['0'] (trimmed (zeros ((-power).toNat - 1) ++ digits))
  else
    pointed asksPoint (digits.take 1) (trimmed (digits.drop 1)) ++ scientificExponent power

/-- Hexadecimal notation with all digits that the value has, or with a number of them. -/
def hexadecimal (asksPoint : Bool) (places : Option Nat) (mantissa : Nat) (exponent : Int) :
    Octets :=
  let (lead, power) : Nat × Int :=
    if mantissa = 0 then (0, 0)
    else
      let shift : Int := 52 - mantissa.log2
      let normal := exponent - shift
      if normal < lowestExponent then
        (mantissa * Nat.pow 2 (exponent - lowestExponent).toNat, -1022)
      else (mantissa * Nat.pow 2 shift.toNat, normal + 52)
  let rounded := fun (count : Nat) =>
    if 13 ≤ count then lead * Nat.pow 16 (count - 13)
    else roundQuotient lead (Nat.pow 16 (13 - count))
  let count := places.getD 13
  let value := rounded count
  let digits := Nat.toDigits 16 value
  let digits := zeros (count + 1 - digits.length) ++ digits
  let whole := digits.length - count
  let part := digits.drop whole
  let part := if places.isNone then withoutZeros part else part
  "0x".toList ++ pointed asksPoint (digits.take whole) part ++ 'p' :: signed power

end Real

end LintRepair.Shell
