/-
This file shows that the character classes of the patterns do not overlap.
-/

import LintRepair.Unicode.CharacterClass

namespace LintRepair.Unicode

/-- What is asked of every character of a text is decided along the text. There are finitely many
characters, so that it could also be decided along all of them. -/
instance (priority := 1100) decidableCharacters {P : Char → Prop} [DecidablePred P]
    (text : List Char) : Decidable (∀ character ∈ text, P character) :=
  List.decidableBAll P text

theorem asciiBlankNotWord : ∀ code < 0x80, isBlank (Char.ofNat code) →
    isWordCharacter (Char.ofNat code) = false := by
  decide

theorem rangesApart : ∀ blank ∈ blankRanges, ∀ word ∈ wordRanges,
    blank.2 < word.1 ∨ word.2 < blank.1 := by
  decide +kernel

/-- White space is no part of a word. -/
theorem blankNotWord {character : Char} (blank : isBlank character) :
    isWordCharacter character = false := by
  by_cases ascii : character.toNat < 0x80
  · have decided := asciiBlankNotWord character.toNat ascii
    rw [Char.ofNat_toNat] at decided
    exact decided blank
  · rw [isBlank, if_neg ascii] at blank
    rw [isWordCharacter, if_neg ascii]
    obtain ⟨blankRange, isBlankRange, inBlank⟩ := List.any_eq_true.mp blank
    apply List.any_eq_false.mpr
    intro wordRange isWordRange inWord
    have apart := rangesApart blankRange isBlankRange wordRange isWordRange
    simp only [Bool.and_eq_true, decide_eq_true_eq] at inBlank inWord
    omega

theorem asciiDigitNotLetter : ∀ code < 0x80, isDecimalDigit (Char.ofNat code) →
    (Char.ofNat code).isAlpha = false := by
  decide

/-- Letters are those of ASCII. -/
theorem letterAscii {character : Char} (isLetter : character.isAlpha) :
    character.toNat < 0x80 := by
  rcases Bool.or_eq_true_iff.mp isLetter with isUpper | isLower
  · have bound : character.val ≤ 'Z'.val := (of_decide_eq_true isUpper).2
    exact Nat.lt_of_le_of_lt (UInt32.le_iff_toNat_le.mp bound) (by decide)
  · have bound : character.val ≤ 'z'.val := of_decide_eq_true (Bool.and_eq_true_iff.mp isLower).2
    exact Nat.lt_of_le_of_lt (UInt32.le_iff_toNat_le.mp bound) (by decide)

/-- A digit is no letter. -/
theorem digitNotLetter {character : Char} (isDigit : isDecimalDigit character) :
    character.isAlpha = false := by
  apply Bool.eq_false_iff.mpr
  intro isLetter
  have decided := asciiDigitNotLetter character.toNat (letterAscii isLetter)
  rw [Char.ofNat_toNat] at decided
  rw [decided isDigit] at isLetter
  cases isLetter

/-- The digits of ASCII are decimal digits. -/
theorem decimalDigitOfDigit {character : Char} (isDigit : character.isDigit) :
    isDecimalDigit character := by
  have bounds := isDigit
  simp only [Char.isDigit, Bool.and_eq_true, decide_eq_true_eq, ge_iff_le,
    UInt32.le_iff_toNat_le] at bounds
  have ascii : character.toNat < 0x80 := Nat.lt_of_le_of_lt bounds.2 (by decide)
  rw [isDecimalDigit, if_pos ascii]
  exact isDigit

theorem wordNotBlank {character : Char} (isWord : isWordCharacter character) :
    isBlank character = false := by
  apply Bool.eq_false_iff.mpr
  intro blank
  rw [blankNotWord blank] at isWord
  cases isWord

end LintRepair.Unicode
