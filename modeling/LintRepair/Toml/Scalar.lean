/-
This file reads TOML numbers, booleans and dates. Their values are of no use here, so a reader only
returns the text behind a valid one.
-/

import LintRepair.Text.Numeral
import LintRepair.Text.Reader

namespace LintRepair.Toml.Scalar

open Text

/-- A reader takes the text ahead and returns the text behind what it read. -/
abbrev Reader := List Char → Option (List Char)

/-- The first of two readers that succeeds. -/
def orElse (first second : Reader) : Reader := fun text =>
  match first text with
  | some rest => some rest
  | none => second text

/-- A part that may be missing. -/
def optional (reader : Reader) : Reader := fun text =>
  some ((reader text).getD text)

def oneOf? (allowed : Char → Bool) : Reader
  | [] => none
  | character :: rest => if allowed character then some rest else none

/-- Digits, between any two of which one underscore may stand. -/
def digits? (isDigit : Char → Bool) : Reader := fun text => do
  go (← oneOf? isDigit text)
where
  go : List Char → List Char
    | '_' :: digit :: rest => if isDigit digit then go rest else '_' :: digit :: rest
    | character :: rest => if isDigit character then go rest else character :: rest
    | [] => []

/-- The text that a reader passed over. -/
def passed (text rest : List Char) : List Char :=
  text.take (text.length - rest.length)

def sign? : Reader :=
  oneOf? fun character => character == '+' || character == '-'

/-- A whole number has no leading zeros. -/
def wholeNumber? : Reader := fun text => do
  match ← optional sign? text with
  | '0' :: rest => some rest
  | rest => digits? Char.isDigit rest

def withoutUnderscores (text : List Char) : List Char :=
  text.filter (· != '_')

/-- The whole numbers of 64 bits begin at its negative and end below it. -/
def signedLimit : Nat := Nat.pow 2 63

/-- A whole number fits in 64 bits with a sign. -/
def fitsSigned (text : List Char) : Bool :=
  match withoutUnderscores text with
  | '-' :: digits => numeralValue digits ≤ signedLimit
  | '+' :: digits => numeralValue digits < signedLimit
  | digits => numeralValue digits < signedLimit

def decimal? : Reader := fun text => do
  let rest ← wholeNumber? text
  if fitsSigned (passed text rest) then some rest else none

def hexadecimalValue (digit : Char) : Nat :=
  if digit.isDigit then digit.toNat - '0'.toNat
  else if digit.toNat < 'a'.toNat then digit.toNat - 'A'.toNat + 10
  else digit.toNat - 'a'.toNat + 10

def isHexadecimal (character : Char) : Bool :=
  character.isDigit || 'a' ≤ character && character ≤ 'f' || 'A' ≤ character && character ≤ 'F'

def isOctal (character : Char) : Bool :=
  '0' ≤ character && character ≤ '7'

def isBinary (character : Char) : Bool :=
  character == '0' || character == '1'

/-- Digits of another base. The number has to fit in 63 bits. -/
def based? (base : Nat) (isDigit : Char → Bool) : Reader := fun text => do
  let rest ← digits? isDigit text
  let digits := withoutUnderscores (passed text rest)
  let value := digits.foldl (fun value digit => value * base + hexadecimalValue digit) 0
  if value < signedLimit then some rest else none

/-- A number without fraction and exponent; bases other than ten are marked. -/
def integer? : Reader
  | '0' :: 'x' :: text => based? 16 isHexadecimal text
  | '0' :: 'o' :: text => based? 8 isOctal text
  | '0' :: 'b' :: text => based? 2 isBinary text
  | text => decimal? text

def fraction? : Reader := fun text => do
  digits? Char.isDigit (← literal? ['.'] text)

def exponent? : Reader := fun text => do
  let text ← oneOf? (fun character => character == 'e' || character == 'E') text
  digits? Char.isDigit (← optional sign? text)

/-- Whether a number without a minus sign rounds past the largest binary floating-point number of
64 bits. The first bounds keep the powers of ten small. -/
def isPositiveInfinity (text : List Char) : Bool :=
  let text := withoutUnderscores text
  let mantissa := text.takeWhile fun character => character != 'e' && character != 'E'
  let exponent := text.drop (mantissa.length + 1)
  let digits := mantissa.filter Char.isDigit
  let value := numeralValue digits
  let behindPoint := (mantissa.dropWhile (· != '.')).length - 1
  let size := numeralValue (exponent.filter Char.isDigit)
  let power : Int :=
    (if exponent.head? = some '-' then -(size : Int) else size) - (behindPoint : Int)
  if text.head? = some '-' || value = 0 then false
  else if 400 < power then true
  else if power + digits.length < 300 then false
  else
    match power with
    | .ofNat power => floatLimit ≤ value * Nat.pow 10 power
    | .negSucc power => floatLimit * Nat.pow 10 (power + 1) ≤ value

/-- A number with a fraction or an exponent must not be too large; one below the range is let
pass. -/
def finite? : Reader := fun text => do
  let rest ← wholeNumber? text
  let rest ← orElse exponent? (fun text => do optional exponent? (← fraction? text)) rest
  if isPositiveInfinity (passed text rest) then none else some rest

def special? : Reader := fun text => do
  orElse (literal? "inf".toList) (literal? "nan".toList) (← optional sign? text)

/-- A numeral of a fixed number of digits within bounds. -/
def fixed? (count lowest highest : Nat) (text : List Char) : Option (Nat × List Char) :=
  let digits := text.take count
  let value := numeralValue digits
  if digits.length = count && digits.all Char.isDigit && lowest ≤ value && value ≤ highest then
    some (value, text.drop count)
  else none

def daysInMonth (year month : Nat) : Nat :=
  if month = 2 then
    if year % 4 = 0 && (year % 100 != 0 || year % 400 = 0) then 29 else 28
  else if month = 4 || month = 6 || month = 9 || month = 11 then 30
  else 31

def date? : Reader := fun text => do
  let (year, text) ← fixed? 4 0 9999 text
  let text ← literal? ['-'] text
  let (month, text) ← fixed? 2 1 12 text
  let text ← literal? ['-'] text
  let (_, text) ← fixed? 2 1 (daysInMonth year month) text
  return text

def fractionOfSecond? : Reader := fun text => do
  let (_, text) ← run? Char.isDigit (← literal? ['.'] text)
  return text

/-- A time of day has seconds, which may be a leap second. -/
def time? : Reader := fun text => do
  let (_, text) ← fixed? 2 0 23 text
  let text ← literal? [':'] text
  let (_, text) ← fixed? 2 0 59 text
  let text ← literal? [':'] text
  let (_, text) ← fixed? 2 0 60 text
  optional fractionOfSecond? text

def offset? : Reader
  | 'Z' :: text => some text
  | 'z' :: text => some text
  | text => do
    let text ← sign? text
    let (_, text) ← fixed? 2 0 23 text
    let text ← literal? [':'] text
    let (_, text) ← fixed? 2 0 59 text
    return text

/-- A time behind a date, with the offset of its zone if it has one. -/
def timeBehindDate? : Reader := fun text => do
  let text ← oneOf? (fun character => character == 'T' || character == 't' || character == ' ') text
  optional offset? (← time? text)

def dateTime? : Reader :=
  orElse (fun text => do optional timeBehindDate? (← date? text)) time?

/-- A value that is neither a string nor a collection. -/
def read? : Reader := fun text =>
  match text with
  | [] => none
  | character :: _ =>
    if character = 't' then literal? "true".toList text
    else if character = 'f' then literal? "false".toList text
    else if character = 'i' then literal? "inf".toList text
    else if character = 'n' then literal? "nan".toList text
    else if character.isDigit || character = '+' || character = '-' then
      orElse dateTime? (orElse finite? (orElse special? integer?)) text
    else none

end LintRepair.Toml.Scalar
