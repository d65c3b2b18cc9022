/-
This file shows how bytes are decoded that stop too early, and that the byte of a one-byte character
is decoded on its own, so that malformed bytes neither swallow nor bring in a line feed.
-/

import LintRepair.Text.LossyDecoding
import Mathlib.Algebra.Group.Nat.Defs
import Mathlib.Data.List.Basic

namespace LintRepair.Text

/-- A character that has been begun is not continued by the byte of a one-byte character. -/
def PartialCharacter.Awaits (begun : Option PartialCharacter) : Prop :=
  ∀ character ∈ begun, 0x80 ≤ character.lowest

theorem leadByteAwaits (byte : UInt8) : PartialCharacter.Awaits (leadByte byte).2 := by
  have below : (0x80 : UInt8) ≤ 0x90 ∧ (0x80 : UInt8) ≤ 0xA0 := by decide
  unfold leadByte
  repeat' split
  all_goals simp [PartialCharacter.Awaits, below]

theorem decodeByteAwaits (begun : Option PartialCharacter) (byte : UInt8) :
    PartialCharacter.Awaits (decodeByte begun byte).2 := by
  unfold decodeByte
  split
  · exact leadByteAwaits byte
  · split
    · split <;> simp [PartialCharacter.Awaits]
    · exact leadByteAwaits byte

theorem decodeFromCons (begun : Option PartialCharacter) (byte : UInt8) (bytes : List UInt8) :
    decodeFrom begun (byte :: bytes) =
      (decodeByte begun byte).1 ++ decodeFrom (decodeByte begun byte).2 bytes := by
  cases begun <;> rfl

/-- The byte of a one-byte character is decoded on its own, whatever stands before it. -/
theorem decodeByteEnds {begun : Option PartialCharacter} (awaits : PartialCharacter.Awaits begun)
    {byte : UInt8} (isAscii : byte < 0x80) :
    decodeByte begun byte = (decodeFrom begun [] ++ [Char.ofNat byte.toNat], none) := by
  have lead : leadByte byte = ([Char.ofNat byte.toNat], none) := by
    rw [leadByte, if_pos isAscii]
  cases begun with
  | none => exact lead
  | some character =>
    have outside : ¬ character.lowest ≤ byte := by
      intro below
      exact absurd (awaits character rfl) (UInt8.not_le.mpr (UInt8.lt_of_le_of_lt below isAscii))
    simp [decodeByte, outside, lead, decodeFrom]

theorem decodeByteAscii {begun : Option PartialCharacter} (awaits : PartialCharacter.Awaits begun)
    {byte : UInt8} (isAscii : byte < 0x80) :
    Char.ofNat byte.toNat ∈ (decodeByte begun byte).1 := by
  rw [decodeByteEnds awaits isAscii]
  simp

theorem decodeAscii {begun : Option PartialCharacter} (awaits : PartialCharacter.Awaits begun)
    {byte : UInt8} (isAscii : byte < 0x80) {bytes : List UInt8} (inside : byte ∈ bytes) :
    Char.ofNat byte.toNat ∈ decodeFrom begun bytes := by
  induction bytes generalizing begun with
  | nil => cases inside
  | cons first bytes inductionHypothesis =>
    rw [decodeFromCons, List.mem_append]
    rcases List.mem_cons.mp inside with rfl | later
    · exact .inl (decodeByteAscii awaits isAscii)
    · exact .inr (inductionHypothesis (decodeByteAwaits begun first) later)

/-- Bytes are decoded alike whether more follow or not, except that a character that is cut in two
becomes a replacement character. -/
theorem decodeCut (begun : Option PartialCharacter) (first second : List UInt8) :
    ∃ decoded next, decodeFrom begun (first ++ second) = decoded ++ decodeFrom next second ∧
      decodeFrom begun first = decoded ++ decodeFrom next [] := by
  induction first generalizing begun with
  | nil => exact ⟨[], begun, rfl, rfl⟩
  | cons byte first inductionHypothesis =>
    obtain ⟨decoded, next, whole, cut⟩ := inductionHypothesis (decodeByte begun byte).2
    refine ⟨(decodeByte begun byte).1 ++ decoded, next, ?_, ?_⟩
    · rw [List.cons_append, decodeFromCons, whole, List.append_assoc]
    · rw [decodeFromCons, cut, List.append_assoc]

/-- A one-byte character divides what is decoded before it from what is decoded behind it. -/
theorem decodeAtAscii {begun : Option PartialCharacter} (awaits : PartialCharacter.Awaits begun)
    {byte : UInt8} (isAscii : byte < 0x80) (first second : List UInt8) :
    decodeFrom begun (first ++ byte :: second) =
      decodeFrom begun first ++ Char.ofNat byte.toNat :: decodeLossily second := by
  induction first generalizing begun with
  | nil =>
    rw [List.nil_append, decodeFromCons, decodeByteEnds awaits isAscii, List.append_assoc]
    rfl
  | cons other first inductionHypothesis =>
    rw [List.cons_append, decodeFromCons, decodeFromCons begun other first,
      inductionHypothesis (decodeByteAwaits begun other), List.append_assoc]

/-- However a begun character goes on, its value lies beyond ASCII. -/
def PartialCharacter.BeyondAscii (begun : Option PartialCharacter) : Prop :=
  ∀ character ∈ begun,
    0x80 ≤ (character.value * 64 + (character.lowest.toNat - 0x80)) * 64 ^ (character.missing - 1)

theorem leadByteBeyond (byte : UInt8) : PartialCharacter.BeyondAscii (leadByte byte).2 := by
  unfold leadByte
  simp only [UInt8.lt_iff_toNat_lt, ← UInt8.toNat_inj]
  repeat' split
  all_goals simp [PartialCharacter.BeyondAscii] at *
  all_goals omega

theorem decodeByteBeyond {begun : Option PartialCharacter}
    (beyond : PartialCharacter.BeyondAscii begun) (byte : UInt8) :
    PartialCharacter.BeyondAscii (decodeByte begun byte).2 := by
  unfold decodeByte
  split
  · exact leadByteBeyond byte
  · next character =>
    split
    · next inside =>
      split
      · simp [PartialCharacter.BeyondAscii]
      · next further =>
        -- The next byte adds at least what the lowest one would have added.
        have before := beyond character rfl
        obtain ⟨missing, more⟩ : ∃ missing, character.missing = missing + 2 :=
          ⟨character.missing - 2, by omega⟩
        rw [Bool.and_eq_true, decide_eq_true_eq, UInt8.le_iff_toNat_le] at inside
        have grows : character.value * 64 + (character.lowest.toNat - 0x80) ≤
            character.value * 64 + (byte.toNat - 0x80) := by omega
        have lowest : (0x80 : UInt8).toNat - 0x80 = 0 := rfl
        have fewer : character.missing - 1 - 1 = missing := by omega
        rw [more] at before
        rintro next ⟨⟩
        calc 0x80 ≤ (character.value * 64 + (character.lowest.toNat - 0x80)) * 64 ^ (missing + 1) :=
              before
          _ ≤ (character.value * 64 + (byte.toNat - 0x80)) * 64 ^ (missing + 1) :=
              Nat.mul_le_mul_right _ grows
          _ = ((character.value * 64 + (byte.toNat - 0x80)) * 64 + ((0x80 : UInt8).toNat - 0x80)) *
                64 ^ (character.missing - 1 - 1) := by
              simp only [lowest, fewer, Nat.pow_succ', Nat.add_zero, Nat.mul_assoc]
    · exact leadByteBeyond byte

/-- Only the code of a character makes it. Codes that are none make the character of code zero. -/
theorem codeOfCharacter {code : Nat} {character : Char} (same : Char.ofNat code = character)
    (notZero : character ≠ '\x00') : code = character.toNat := by
  by_cases valid : code.isValidChar
  · rw [Char.ofNat, dif_pos valid] at same
    rw [← same]
    rfl
  · rw [Char.ofNat, dif_neg valid] at same
    exact absurd same.symm notZero

theorem leadByteOrigin {byte : UInt8} {character : Char} (isAscii : character.toNat < 0x80)
    (notZero : character ≠ '\x00') (inside : character ∈ (leadByte byte).1) :
    byte.toNat = character.toNat := by
  have different : character ≠ replacementCharacter := by
    rintro rfl
    exact absurd isAscii (by decide)
  unfold leadByte at inside
  split at inside
  · exact codeOfCharacter (List.mem_singleton.mp inside).symm notZero
  · repeat' split at inside
    all_goals simp [different] at inside

/-- A one-byte character is decoded from its own byte only. -/
theorem decodeByteOrigin {begun : Option PartialCharacter}
    (beyond : PartialCharacter.BeyondAscii begun) {byte : UInt8} {character : Char}
    (isAscii : character.toNat < 0x80) (notZero : character ≠ '\x00')
    (inside : character ∈ (decodeByte begun byte).1) : byte.toNat = character.toNat := by
  have different : character ≠ replacementCharacter := by
    rintro rfl
    exact absurd isAscii (by decide)
  unfold decodeByte at inside
  split at inside
  · exact leadByteOrigin isAscii notZero inside
  · next partly =>
    split at inside
    · next continues =>
      split at inside
      · next complete =>
        have before := beyond partly rfl
        have code := codeOfCharacter (List.mem_singleton.mp inside).symm notZero
        rw [Bool.and_eq_true, decide_eq_true_eq, UInt8.le_iff_toNat_le] at continues
        rw [Nat.sub_eq_zero_of_le complete, Nat.pow_zero] at before
        omega
      · cases inside
    · exact leadByteOrigin isAscii notZero (by simpa [different] using inside)

/-- Bytes without a line feed hold none when they are decoded. -/
theorem noLineFeedDecoded {begun : Option PartialCharacter}
    (beyond : PartialCharacter.BeyondAscii begun) {bytes : List UInt8} (absent : 0x0A ∉ bytes) :
    '\n' ∉ decodeFrom begun bytes := by
  induction bytes generalizing begun with
  | nil => cases begun <;> simp [decodeFrom, replacementCharacter]
  | cons byte bytes inductionHypothesis =>
    rw [List.mem_cons, not_or] at absent
    rw [decodeFromCons, List.mem_append, not_or]
    exact ⟨fun inside => absent.1 (UInt8.toNat_inj.mp
        (decodeByteOrigin beyond (by decide) (by decide) inside)).symm,
      inductionHypothesis (decodeByteBeyond beyond byte) absent.2⟩

theorem decodeByteNotIdle (begun : Option PartialCharacter) (byte : UInt8) :
    (decodeByte begun byte).1 ≠ [] ∨ (decodeByte begun byte).2.isSome := by
  unfold decodeByte leadByte
  split
  · repeat' split
    all_goals simp
  · split
    · split <;> simp
    · simp

/-- Whatever has been read is decoded to something. -/
theorem decodeFilled {begun : Option PartialCharacter} {bytes : List UInt8}
    (filled : begun.isSome ∨ bytes ≠ []) : decodeFrom begun bytes ≠ [] := by
  induction bytes generalizing begun with
  | nil => cases begun <;> simp_all [decodeFrom]
  | cons byte bytes inductionHypothesis =>
    rw [decodeFromCons]
    rcases decodeByteNotIdle begun byte with decoded | next
    · exact List.append_ne_nil_of_left_ne_nil decoded _
    · exact List.append_ne_nil_of_right_ne_nil _ (inductionHypothesis (.inl next))

/-- Where a decoded text holds a one-byte character, the bytes can be divided at its byte. -/
theorem decodeDivided {begun : Option PartialCharacter} (awaits : PartialCharacter.Awaits begun)
    (beyond : PartialCharacter.BeyondAscii begun) {character : Char}
    (isAscii : character.toNat < 0x80) (notZero : character ≠ '\x00') {bytes : List UInt8}
    {front behind : List Char} (decoded : decodeFrom begun bytes = front ++ character :: behind) :
    ∃ first byte second, bytes = first ++ byte :: second ∧ byte.toNat = character.toNat ∧
      decodeFrom begun first = front ∧ decodeLossily second = behind := by
  have different : character ≠ replacementCharacter := by
    rintro rfl
    exact absurd isAscii (by decide)
  have unfinished : character ∉ decodeFrom begun [] := by
    cases begun <;> simp [decodeFrom, different]
  induction bytes generalizing begun front with
  | nil =>
    rw [decoded] at unfinished
    simp at unfinished
  | cons byte bytes inductionHypothesis =>
    have later : ∀ rest, decodeFrom (decodeByte begun byte).2 bytes = rest ++ character :: behind →
        front = (decodeByte begun byte).1 ++ rest →
        ∃ first byte' second, byte :: bytes = first ++ byte' :: second ∧
          byte'.toNat = character.toNat ∧ decodeFrom begun first = front ∧
          decodeLossily second = behind := by
      intro rest decodedRest whole
      obtain ⟨first, byte', second, rfl, code, decodedFirst, decodedSecond⟩ :=
        inductionHypothesis (decodeByteAwaits begun byte) (decodeByteBeyond beyond byte) decodedRest
          (by cases (decodeByte begun byte).2 <;> simp [decodeFrom, different])
      exact ⟨byte :: first, byte', second, rfl, code,
        by rw [decodeFromCons, decodedFirst, whole], decodedSecond⟩
    rw [decodeFromCons] at decoded
    rcases List.append_eq_append_iff.mp decoded with ⟨rest, whole, decodedRest⟩ |
      ⟨rest, own, decodedRest⟩
    · exact later rest decodedRest whole
    · cases rest with
      | nil => exact later [] (by simpa using decodedRest.symm) (by simpa using own.symm)
      | cons here rest =>
        obtain ⟨rfl, followed⟩ := List.cons_eq_cons.mp decodedRest
        have inside : character ∈ (decodeByte begun byte).1 := by
          rw [own]
          simp
        have code := decodeByteOrigin beyond isAscii notZero inside
        have small : byte < 0x80 := UInt8.lt_iff_toNat_lt.mpr (by rw [code]; exact isAscii)
        rw [decodeByteEnds awaits small] at own followed
        obtain ⟨sameFront, -, nothing⟩ :=
          (List.append_cons_inj_of_notMem unfinished List.not_mem_nil).mp own
        exact ⟨[], byte, bytes, rfl, code, sameFront, by rw [followed, ← nothing]; rfl⟩

end LintRepair.Text
