/-
This file reads and bounds decimal numerals.
-/

namespace LintRepair.Text

/-- Lines and columns are counted in 64 bits. -/
def wordLimit : Nat := Nat.pow 2 64

/-- The least number that rounds past the largest binary floating-point number of 64 bits. -/
def floatLimit : Nat := Nat.pow 2 1024 - Nat.pow 2 970

def digitValue (digit : Char) : Nat :=
  digit.toNat - '0'.toNat

/-- The number that decimal digits stand for, the most significant digit first. -/
def numeralValue (digits : List Char) : Nat :=
  digits.foldl (fun value digit => value * 10 + digitValue digit) 0

/-- A numeral is a non-empty run of ASCII digits whose value lies below the limit. Leading zeros
are allowed. -/
def numeral? (limit : Nat) (digits : List Char) : Option Nat :=
  if !digits.isEmpty && digits.all Char.isDigit && numeralValue digits < limit then
    some (numeralValue digits)
  else none

end LintRepair.Text
