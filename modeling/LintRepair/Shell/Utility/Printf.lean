/-
This file writes arguments as a format asks.
-/

import LintRepair.Shell.Real
import LintRepair.Shell.Utility.Echo

namespace LintRepair.Shell.Utility

namespace Printf

/-- How a value is laid out. -/
structure Layout where
  flags : List Char := []
  width : Nat := 0
  precision : Option Nat := none

def Layout.hasFlag (layout : Layout) (flag : Char) : Bool :=
  layout.flags.contains flag

/-- A text with spaces before it or behind it up to the width. -/
def Layout.pad (layout : Layout) (text : Octets) : Octets :=
  let spaces := List.replicate (layout.width - text.length) ' '
  if layout.hasFlag '-' then text ++ spaces else spaces ++ text

/-- A number with its sign, which may be filled up with zeros behind the sign. -/
def Layout.padNumber (layout : Layout) (mayFill : Bool) (sign digits : Octets) : Octets :=
  if mayFill && layout.hasFlag '0' && !layout.hasFlag '-' then
    sign ++ Real.zeros (layout.width - sign.length - digits.length) ++ digits
  else layout.pad (sign ++ digits)

def Layout.sign (layout : Layout) (isNegative : Bool) : Octets :=
  if isNegative then ['-']
  else if layout.hasFlag '+' then ['+']
  else if layout.hasFlag ' ' then [' ']
  else []

/-- The digits of a whole number, at least as many as the precision says. No digit stands for zero if
none is asked for. -/
def Layout.digits (layout : Layout) (base value : Nat) : Octets :=
  let digits := if value = 0 && layout.precision = some 0 then [] else Nat.toDigits base value
  Real.zeros (layout.precision.getD 1 - digits.length) ++ digits

def Layout.text (layout : Layout) (text : Octets) : Octets :=
  layout.pad
    (match layout.precision with
    | none => text
    | some count => text.take count)

def Layout.signedNumber (layout : Layout) (value : Int) : Octets :=
  layout.padNumber layout.precision.isNone (layout.sign (value < 0))
    (layout.digits 10 value.natAbs)

def upperCase (text : Octets) : Octets :=
  text.map Char.toUpper

def Layout.unsignedNumber (layout : Layout) (conversion : Char) (value : Nat) : Octets :=
  let base := if conversion = 'o' then 8 else if conversion = 'u' then 10 else 16
  let digits := layout.digits base value
  let digits :=
    if conversion = 'o' && layout.hasFlag '#' && digits.head? != some '0' then '0' :: digits
    else digits
  let mark :=
    if base = 16 && layout.hasFlag '#' && value != 0 then ['0', 'x'] else []
  let number := layout.padNumber layout.precision.isNone mark digits
  if conversion = 'X' then upperCase number else number

def Layout.real (layout : Layout) (conversion : Char) (value : Real) : Octets :=
  let sign := layout.sign value.isNegative
  let asksPoint := layout.hasFlag '#'
  let count := layout.precision.getD 6
  let number :=
    match value.magnitude with
    | .infinite => layout.padNumber false sign "inf".toList
    | .notANumber => layout.padNumber false sign "nan".toList
    | .finite mantissa exponent =>
      match conversion.toLower with
      | 'f' => layout.padNumber true sign (Real.fixed asksPoint count mantissa exponent)
      | 'e' => layout.padNumber true sign (Real.scientific asksPoint count mantissa exponent)
      | 'g' => layout.padNumber true sign (Real.general asksPoint count mantissa exponent)
      | _ =>
        let digits := Real.hexadecimal asksPoint layout.precision mantissa exponent
        layout.padNumber true (sign ++ digits.take 2) (digits.drop 2)
  if conversion.isUpper then upperCase number else number

/-- The arguments ahead, whether some was taken, and whether one was faulty. -/
structure Arguments where
  ahead : List Octets
  isTaken : Bool := false
  isFaulty : Bool := false

abbrev Formatting := StateT Arguments Step

def next? : Formatting (Option Octets) := do
  let arguments ← get
  match arguments.ahead with
  | [] => return none
  | argument :: ahead =>
    set { arguments with ahead, isTaken := true }
    return some argument

/-- A faulty argument is told, and its value counts nevertheless. -/
def fault (argument : Octets) (message : String) : Formatting Unit := do
  Step.complain (argument ++ ": ".toList ++ message.toList)
  modify fun arguments => { arguments with isFaulty := true }

def check (argument behind : Octets) (isOutOfRange : Bool) : Formatting Unit :=
  if !behind.isEmpty then
    fault argument
      (if behind.length = argument.length then "expected numeric value"
      else "not completely converted")
  else if isOutOfRange then fault argument "Numerical result out of range"
  else return

/-- The value of the character behind a quotation mark. -/
def quotedValue? (argument : Octets) : Option Nat :=
  match argument with
  | '\'' :: rest | '"' :: rest => some ((rest.head?.map Char.toNat).getD 0)
  | _ => none

def integer (reader : Octets → IntegerReading) : Formatting Int := do
  match ← next? with
  | none => return 0
  | some argument =>
    match quotedValue? argument with
    | some value => return value
    | none =>
      let reading := reader argument
      check argument reading.behind reading.isTooLarge
      return reading.value

def real : Formatting Real := do
  match ← next? with
  | none => return ⟨false, .finite 0 0⟩
  | some argument =>
    match quotedValue? argument with
    | some value => return ⟨false, .finite value 0⟩
    | none =>
      let reading := Real.read argument
      check argument reading.behind reading.isOutOfRange
      return reading.value

/-- An integer of 32 bits. -/
def count : Formatting Int := do
  return (← integer (readInteger 0)).bmod 4294967296

/-- The width and the text behind it. A negative one asks for spaces behind the value. -/
def width (layout : Layout) (format : Octets) : Formatting (Layout × Octets) := do
  match format with
  | '*' :: rest =>
    let width ← count
    let flags := if width < 0 then '-' :: layout.flags else layout.flags
    return ({ layout with flags, width := width.natAbs }, rest)
  | _ =>
    let digits := format.takeWhile Char.isDigit
    return ({ layout with width := ofDigits 10 (digitsOf 10 digits).1 }, format.drop digits.length)

/-- The precision and the text behind it. A negative one counts as none. -/
def precision (layout : Layout) (format : Octets) : Formatting (Layout × Octets) := do
  match format with
  | '.' :: '*' :: rest =>
    let precision ← count
    let known := if precision < 0 then none else some precision.toNat
    return ({ layout with precision := known }, rest)
  | '.' :: rest =>
    let digits := rest.takeWhile Char.isDigit
    let known := some (ofDigits 10 (digitsOf 10 digits).1)
    return ({ layout with precision := known }, rest.drop digits.length)
  | _ => return (layout, format)

/-- How the output goes on. -/
inductive Continuation where
  | onward
  | stopped
  | failed

/-- The text of a value as its conversion asks, if that is known. -/
def converted? (layout : Layout) (conversion : Char) :
    Formatting (Option (Octets × Continuation)) := do
  match conversion with
  | 'b' =>
    let (text, isStopped) := escaped ((← next?).getD [])
    return some (layout.text text, if isStopped then .stopped else .onward)
  | 'c' =>
    let character := ((← next?).bind List.head?).getD '\x00'
    return some (layout.pad [character], .onward)
  | 's' => return some (layout.text ((← next?).getD []), .onward)
  | 'd' | 'i' =>
    let value ← integer (readInteger 0)
    return some (layout.signedNumber value, .onward)
  | 'o' | 'u' | 'x' | 'X' =>
    let value ← integer (readNatural 0)
    return some (layout.unsignedNumber conversion value.toNat, .onward)
  | 'a' | 'A' | 'e' | 'E' | 'f' | 'F' | 'g' | 'G' =>
    let value ← real
    return some (layout.real conversion value, .onward)
  | _ => return none

/-- The output of a format that is passed once. Every round passes a part of it. -/
def pass : Nat → Octets → Formatting (Octets × Continuation)
  | 0, _ => return ([], .onward)
  | _, [] => return ([], .onward)
  | rounds + 1, '\\' :: format => do
    let (character, behind) := escape format
    let (rest, continuation) ← pass rounds behind
    return (character :: rest, continuation)
  | rounds + 1, '%' :: '%' :: format => do
    let (rest, continuation) ← pass rounds format
    return ('%' :: rest, continuation)
  | rounds + 1, '%' :: format => do
    let flags := format.takeWhile fun octet => "#-+ 0".toList.contains octet
    let (layout, behind) ← width { flags } (format.drop flags.length)
    let (layout, behind) ← precision layout behind
    match behind with
    | [] =>
      Step.complain "missing format character".toList
      return ([], .failed)
    | conversion :: behind =>
      match ← converted? layout conversion with
      | none =>
        let directive := format.take (format.length - behind.length)
        Step.complain ('%' :: directive ++ ": invalid directive".toList)
        return ([], .failed)
      | some (text, .onward) =>
        let (rest, continuation) ← pass rounds behind
        return (text ++ rest, continuation)
      | some (text, continuation) => return (text, continuation)
  | rounds + 1, character :: format => do
    let (rest, continuation) ← pass rounds format
    return (character :: rest, continuation)

/-- The format is passed again as long as arguments are left and it takes some. -/
def passes (format : Octets) : Nat → Formatting (Octets × Continuation)
  | 0 => return ([], .onward)
  | rounds + 1 => do
    let (text, continuation) ← pass (format.length + 1) format
    match continuation with
    | .onward =>
      let arguments ← get
      if arguments.isTaken && !arguments.ahead.isEmpty then
        let (rest, continuation) ← passes format rounds
        return (text ++ rest, continuation)
      else return (text, .onward)
    | _ => return (text, continuation)

end Printf

/-- The format is the first argument behind options, of which there are none. -/
def printf (arguments : List Octets) : Step Reply := do
  match (← options "" arguments).2 with
  | [] => Step.fail "usage: printf format [arg ...]".toList
  | format :: arguments =>
    let ((output, continuation), rest) ←
      (Printf.passes format (arguments.length + 1)).run { ahead := arguments }
    match continuation with
    | .failed => return { output, status := 2 }
    | _ => return { output, status := if rest.isFaulty then 1 else 0 }

end LintRepair.Shell.Utility
