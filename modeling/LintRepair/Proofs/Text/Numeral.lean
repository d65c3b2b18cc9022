/-
This file shows that the decimal digits of a number are read back as that number.
-/

import LintRepair.Text.Numeral
import Mathlib.Data.Nat.Digits.Defs

namespace LintRepair.Text

theorem digitsAreDigits (value : Nat) : ∀ digit ∈ Nat.toDigits 10 value, digit.isDigit := by
  intro digit inside
  exact Nat.isDigit_of_mem_toDigits (by decide) (by decide) inside

theorem numeralValueOfDigits (value : Nat) : numeralValue (Nat.toDigits 10 value) = value := by
  have decimal := Nat.ofDigitChars_toDigits (b := 10) (n := value) (by decide) (by decide)
  rw [Nat.ofDigitChars_eq_foldl] at decimal
  simp only [numeralValue, digitValue]
  simpa only [Nat.mul_comm 10] using decimal

theorem numeralOfDigits {limit value : Nat} (inRange : value < limit) :
    numeral? limit (Nat.toDigits 10 value) = some value := by
  have notEmpty : (Nat.toDigits 10 value).isEmpty = false := by
    simp [Nat.toDigits_ne_nil]
  have areDigits : (Nat.toDigits 10 value).all Char.isDigit := by
    simpa using digitsAreDigits value
  simp [numeral?, notEmpty, areDigits, numeralValueOfDigits, inRange]

theorem numeral_eq_some_iff {limit value : Nat} {digits : List Char} :
    numeral? limit digits = some value ↔ digits ≠ [] ∧ (∀ digit ∈ digits, digit.isDigit) ∧
      numeralValue digits = value ∧ value < limit := by
  unfold numeral?
  split
  · next accepted =>
    simp only [Bool.and_eq_true, Bool.not_eq_true', List.isEmpty_eq_false_iff, List.all_eq_true,
      decide_eq_true_eq] at accepted
    obtain ⟨⟨notEmpty, areDigits⟩, inRange⟩ := accepted
    constructor
    · rintro ⟨⟩
      exact ⟨notEmpty, areDigits, rfl, inRange⟩
    · rintro ⟨-, -, rfl, -⟩
      rfl
  · next refused =>
    constructor
    · rintro ⟨⟩
    · rintro ⟨notEmpty, areDigits, rfl, inRange⟩
      have allDigits : digits.all Char.isDigit = true := List.all_eq_true.mpr areDigits
      simp [notEmpty, inRange, allDigits] at refused

/-- Only the digits of zero begin with a zero. -/
theorem noLeadingZero {value : Nat} (leading : (Nat.toDigits 10 value).head? = some '0') :
    Nat.toDigits 10 value = ['0'] := by
  induction value using Nat.strongRecOn with
  | ind value inductionHypothesis =>
    by_cases small : value < 10
    · rw [Nat.toDigits_of_lt_base small] at leading ⊢
      simpa using leading
    · rw [Nat.toDigits_of_base_le (by decide) (by omega)] at leading
      have shorter : value / 10 < value := by omega
      have leadingBefore : (Nat.toDigits 10 (value / 10)).head? = some '0' := by
        obtain ⟨first, others, digits⟩ := List.exists_cons_of_ne_nil
          (Nat.toDigits_ne_nil (n := value / 10) (b := 10))
        rw [digits] at leading ⊢
        exact leading
      have zero : value / 10 = 0 := by
        have read := numeralValueOfDigits (value / 10)
        rw [inductionHypothesis _ shorter leadingBefore] at read
        exact read.symm
      omega

end LintRepair.Text
