/-
This file reads a JSON number, one character at a time, and judges what it stands for.
-/

import LintRepair.LintReport.QuotedText
import LintRepair.Text.Numeral

namespace LintRepair.LintReport

inductive Number.Part where
  | sign
  | zero
  | whole
  | point
  | fraction
  | exponentMark
  | exponentSign
  | exponent
deriving Repr, DecidableEq

/-- A number that has been read in part. The digits of each part stand in reverse order. -/
structure Number where
  negative : Bool
  whole : List Char
  fraction : List Char
  exponentNegative : Bool
  exponent : List Char
  part : Number.Part
deriving Repr, DecidableEq

namespace Number

/-- The first character of a number: a minus sign or a digit. -/
def start? (character : Char) : Option Number :=
  if character = '-' then some ⟨true, [], [], false, [], .sign⟩
  else if character = '0' then some ⟨false, ['0'], [], false, [], .zero⟩
  else if character.isDigit then some ⟨false, [character], [], false, [], .whole⟩
  else none

/-- A number may end behind any digit. -/
def isComplete (number : Number) : Bool :=
  match number.part with
  | .zero | .whole | .fraction | .exponent => true
  | .sign | .point | .exponentMark | .exponentSign => false

/-- What may follow the digits of a part: a point, an exponent, or the end of the number. -/
def stepBehind (number : Number) (pointAllowed : Bool) (character : Char) : Progress Number :=
  if pointAllowed && character = '.' then .more { number with part := .point }
  else if character = 'e' || character = 'E' then .more { number with part := .exponentMark }
  else .complete

def pushWhole (number : Number) (digit : Char) : Number :=
  { number with
    whole := digit :: number.whole
    part := if number.part = .sign && digit = '0' then .zero else .whole }

def pushFraction (number : Number) (digit : Char) : Number :=
  { number with fraction := digit :: number.fraction, part := .fraction }

def pushExponent (number : Number) (digit : Char) : Number :=
  { number with exponent := digit :: number.exponent, part := .exponent }

/-- One character behind the start of a number. The character that ends a number is not part of
it. A leading zero stands alone before the point. -/
def step (number : Number) (character : Char) : Except Failure (Progress Number) :=
  match number.part with
  | .sign =>
    if character.isDigit then .ok (.more (number.pushWhole character)) else .error .malformed
  | .zero =>
    if character.isDigit then .error .malformed else .ok (number.stepBehind true character)
  | .whole =>
    if character.isDigit then .ok (.more (number.pushWhole character))
    else .ok (number.stepBehind true character)
  | .point =>
    if character.isDigit then .ok (.more (number.pushFraction character)) else .error .malformed
  | .fraction =>
    if character.isDigit then .ok (.more (number.pushFraction character))
    else .ok (number.stepBehind false character)
  | .exponentMark =>
    if character = '+' then .ok (.more { number with part := .exponentSign })
    else if character = '-' then
      .ok (.more { number with part := .exponentSign, exponentNegative := true })
    else if character.isDigit then .ok (.more (number.pushExponent character))
    else .error .malformed
  | .exponentSign =>
    if character.isDigit then .ok (.more (number.pushExponent character)) else .error .malformed
  | .exponent =>
    if character.isDigit then .ok (.more (number.pushExponent character)) else .ok .complete

/-- The value of a number that is written as digits alone and fits in 64 bits. -/
def natural? (number : Number) : Option Nat :=
  if !number.negative && number.part matches .zero | .whole then
    Text.numeral? Text.wordLimit number.whole.reverse
  else none

/-- The leading digits of a number as far as they fit in 64 bits, and the power of ten by which
they have to be multiplied. -/
structure Scaled where
  leading : Nat
  power : Int
deriving Repr, DecidableEq

/-- Once a digit before the point no longer fits, it and all later ones only raise the power. -/
def scaleWhole : Scaled → List Char → Scaled
  | scaled, [] => scaled
  | scaled, digit :: digits =>
    let leading := scaled.leading * 10 + Text.digitValue digit
    if scaled.power = 0 && leading < Text.wordLimit then scaleWhole ⟨leading, 0⟩ digits
    else scaleWhole ⟨scaled.leading, scaled.power + 1⟩ digits

/-- Once a digit behind the point no longer fits, it and all later ones are dropped. -/
def scaleFraction : Scaled → List Char → Scaled
  | scaled, [] => scaled
  | scaled, digit :: digits =>
    let leading := scaled.leading * 10 + Text.digitValue digit
    if leading < Text.wordLimit then scaleFraction ⟨leading, scaled.power - 1⟩ digits else scaled

def scaled (number : Number) : Scaled :=
  let digits := scaleFraction (scaleWhole ⟨0, 0⟩ number.whole.reverse) number.fraction.reverse
  let exponent : Int := Text.numeralValue number.exponent.reverse
  { digits with
    power := if number.exponentNegative then digits.power - exponent else digits.power + exponent }

/-- The nearest number with at most 53 significant binary digits; of two nearest ones the one
whose last digit is even. -/
def roundBinary (value : Nat) : Nat :=
  if value < Nat.pow 2 53 then value
  else
    let unit := Nat.pow 2 (value.log2 - 52)
    let quotient := value / unit
    let rest := value % unit
    let up := unit < 2 * rest || unit = 2 * rest && quotient % 2 = 1
    (if up then quotient + 1 else quotient) * unit

/-- A number is out of range when its floating-point value would be infinite. -/
def isOutOfRange (number : Number) : Bool :=
  let scaled := number.scaled
  match scaled.power with
  | .negSucc _ => false
  | .ofNat power =>
    scaled.leading != 0 &&
      (308 < power || Text.floatLimit ≤ roundBinary scaled.leading * roundBinary (Nat.pow 10 power))

end Number

end LintRepair.LintReport
