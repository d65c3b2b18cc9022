/-
This file compares characters with the bytes that encode them: the bytes stand in the order of the
characters, they are decoded to the characters, and bytes that are decoded without a replacement
character encode a text.
-/

import LintRepair.Proofs.Text.LossyDecoding
import Mathlib.Data.List.Basic
import Mathlib.Tactic.SplitIfs

namespace LintRepair.Text

/-- The bytes that encode a text. -/
def encodedText (text : List Char) : List UInt8 :=
  text.flatMap String.utf8EncodeChar

theorem encodedTextAppend (first second : List Char) :
    encodedText (first ++ second) = encodedText first ++ encodedText second :=
  List.flatMap_append

theorem encodedTextCons (character : Char) (text : List Char) :
    encodedText (character :: text) = String.utf8EncodeChar character ++ encodedText text :=
  List.flatMap_cons

/-- The digits of a code to the base 64, from the end. -/
theorem divisionsNested (value : Nat) :
    value / 4096 = value / 64 / 64 ∧ value / 262144 = value / 64 / 64 / 64 := by
  omega

/-- The first byte in which two encodings differ decides as the characters do. -/
theorem encodingOrder {left right : Char} (less : left.toNat < right.toNat)
    (first second : List UInt8) :
    String.utf8EncodeChar left ++ first < String.utf8EncodeChar right ++ second := by
  have bound : right.val.toNat < 0x110000 := by
    rcases right.valid with low | high
    · exact Nat.lt_trans low (by decide)
    · exact high.2
  change left.val.toNat < right.val.toNat at less
  rw [String.utf8EncodeChar, String.utf8EncodeChar]
  simp only [divisionsNested]
  split_ifs
  all_goals simp only [List.cons_append, List.nil_append, List.cons_lt_cons_iff,
    UInt8.lt_iff_toNat_lt, ← UInt8.toNat_inj, UInt8.toNat_ofNat']
  all_goals omega

theorem leadOfTwo {byte : UInt8} (lower : 0xC2 ≤ byte.toNat) (upper : byte.toNat < 0xE0) :
    leadByte byte = ([], some ⟨1, byte.toNat - 0xC0, 0x80, 0xBF⟩) := by
  unfold leadByte
  simp only [UInt8.lt_iff_toNat_lt, UInt8.reduceToNat]
  rw [if_neg (by omega), if_neg (by omega), if_pos upper]

/-- The second byte of three rules out overlong forms and surrogates. -/
theorem leadOfThree {byte : UInt8} (lower : 0xE0 ≤ byte.toNat) (upper : byte.toNat < 0xF0) :
    ∃ lowest highest, leadByte byte = ([], some ⟨2, byte.toNat - 0xE0, lowest, highest⟩) ∧
      ∀ second : UInt8, lowest ≤ second ∧ second ≤ highest ↔
        0x80 ≤ second.toNat ∧ second.toNat ≤ 0xBF ∧ (byte.toNat = 0xE0 → 0xA0 ≤ second.toNat) ∧
          (byte.toNat = 0xED → second.toNat ≤ 0x9F) := by
  unfold leadByte
  simp only [UInt8.lt_iff_toNat_lt, UInt8.le_iff_toNat_le, ← UInt8.toNat_inj, UInt8.reduceToNat]
  rw [if_neg (by omega), if_neg (by omega), if_neg (by omega)]
  split_ifs with first surrogate
  · exact ⟨0xA0, 0xBF, by rw [first], by simp only [UInt8.reduceToNat]; omega⟩
  · exact ⟨0x80, 0x9F, by rw [surrogate], by simp only [UInt8.reduceToNat]; omega⟩
  · exact ⟨0x80, 0xBF, rfl, by simp only [UInt8.reduceToNat]; omega⟩

/-- The second byte of four rules out overlong forms and values past the last code point. -/
theorem leadOfFour {byte : UInt8} (lower : 0xF0 ≤ byte.toNat) (upper : byte.toNat < 0xF5) :
    ∃ lowest highest, leadByte byte = ([], some ⟨3, byte.toNat - 0xF0, lowest, highest⟩) ∧
      ∀ second : UInt8, lowest ≤ second ∧ second ≤ highest ↔
        0x80 ≤ second.toNat ∧ second.toNat ≤ 0xBF ∧ (byte.toNat = 0xF0 → 0x90 ≤ second.toNat) ∧
          (byte.toNat = 0xF4 → second.toNat ≤ 0x8F) := by
  unfold leadByte
  simp only [UInt8.lt_iff_toNat_lt, UInt8.le_iff_toNat_le, ← UInt8.toNat_inj, UInt8.reduceToNat]
  rw [if_neg (by omega), if_neg (by omega), if_neg (by omega), if_neg (by omega),
    if_neg (by omega), if_neg (by omega)]
  split_ifs with first middle last
  · exact ⟨0x90, 0xBF, by rw [first], by simp only [UInt8.reduceToNat]; omega⟩
  · exact ⟨0x80, 0xBF, rfl, by simp only [UInt8.reduceToNat]; omega⟩
  · exact ⟨0x80, 0x8F, by rw [last], by simp only [UInt8.reduceToNat]; omega⟩
  · omega

theorem leadAscii {byte : UInt8} (isAscii : byte < 0x80) :
    leadByte byte = ([Char.ofNat byte.toNat], none) := by
  rw [leadByte, if_pos isAscii]

/-- The other bytes neither are nor begin a character. -/
theorem leadMalformed {byte : UInt8} (notAscii : 0x80 ≤ byte.toNat)
    (outside : byte.toNat < 0xC2 ∨ 0xF5 ≤ byte.toNat) :
    leadByte byte = ([replacementCharacter], none) := by
  unfold leadByte
  simp only [UInt8.lt_iff_toNat_lt, ← UInt8.toNat_inj, UInt8.reduceToNat]
  rw [if_neg (by omega)]
  rcases outside with below | past
  · rw [if_pos below]
  · rw [if_neg (by omega), if_neg (by omega), if_neg (by omega), if_neg (by omega),
      if_neg (by omega), if_neg (by omega), if_neg (by omega), if_neg (by omega)]

theorem leadBounds {byte : UInt8} {begun : PartialCharacter}
    (leads : leadByte byte = ([], some begun)) : 0xC2 ≤ byte.toNat ∧ byte.toNat < 0xF5 := by
  by_contra outside
  by_cases isAscii : byte < 0x80
  · rw [leadAscii isAscii] at leads
    cases leads
  · have notAscii := UInt8.le_iff_toNat_le.mp (UInt8.not_lt.mp isAscii)
    rw [leadMalformed notAscii (by omega)] at leads
    cases leads

/-- A byte at the start of a character is one, or it is malformed, or it begins one. -/
theorem leadCases (byte : UInt8) :
    (byte < 0x80 ∧ leadByte byte = ([Char.ofNat byte.toNat], none)) ∨
      leadByte byte = ([replacementCharacter], none) ∨
      ∃ begun, leadByte byte = ([], some begun) := by
  by_cases isAscii : byte < 0x80
  · exact .inl ⟨isAscii, leadAscii isAscii⟩
  have notAscii := UInt8.le_iff_toNat_le.mp (UInt8.not_lt.mp isAscii)
  by_cases inside : 0xC2 ≤ byte.toNat ∧ byte.toNat < 0xF5
  · obtain ⟨lower, upper⟩ := inside
    refine .inr (.inr ?_)
    by_cases two : byte.toNat < 0xE0
    · exact ⟨_, leadOfTwo lower two⟩
    by_cases three : byte.toNat < 0xF0
    · obtain ⟨_, _, begins, -⟩ := leadOfThree (Nat.not_lt.mp two) three
      exact ⟨_, begins⟩
    · obtain ⟨_, _, begins, -⟩ := leadOfFour (Nat.not_lt.mp three) upper
      exact ⟨_, begins⟩
  · exact .inr (.inl (leadMalformed notAscii (by omega)))

/-- The bytes that complete a begun character. -/
inductive Completes : PartialCharacter → List UInt8 → Char → Prop
  | last {missing value : Nat} {lowest highest byte : UInt8} (only : missing ≤ 1)
      (bounds : lowest ≤ byte ∧ byte ≤ highest) :
      Completes ⟨missing, value, lowest, highest⟩ [byte]
        (Char.ofNat (value * 64 + (byte.toNat - 0x80)))
  | next {missing value : Nat} {lowest highest byte : UInt8} {later : List UInt8}
      {character : Char} (more : 1 < missing) (bounds : lowest ≤ byte ∧ byte ≤ highest)
      (completes : Completes ⟨missing - 1, value * 64 + (byte.toNat - 0x80), 0x80, 0xBF⟩ later
        character) :
      Completes ⟨missing, value, lowest, highest⟩ (byte :: later) character

theorem Completes.decoded {begun : PartialCharacter} {later : List UInt8} {character : Char}
    (completes : Completes begun later character) (bytes : List UInt8) :
    decodeFrom (some begun) (later ++ bytes) = character :: decodeLossily bytes := by
  induction completes with
  | last only bounds => simp [decodeFrom, decodeByte, only, bounds, decodeLossily]
  | next more bounds _ inductionHypothesis =>
    simp [decodeFrom, decodeByte, Nat.not_le.mpr more, bounds, inductionHypothesis]

/-- Without a replacement character the bytes behind a begun character complete it. -/
theorem completesOfDecoded {begun : PartialCharacter} {bytes : List UInt8}
    (wellFormed : replacementCharacter ∉ decodeFrom (some begun) bytes) :
    ∃ later character rest, bytes = later ++ rest ∧ Completes begun later character := by
  induction bytes generalizing begun with
  | nil => simp [decodeFrom] at wellFormed
  | cons byte bytes inductionHypothesis =>
    simp only [decodeFromCons, decodeByte] at wellFormed
    split at wellFormed
    · next inside =>
      simp only [Bool.and_eq_true, decide_eq_true_eq] at inside
      split at wellFormed
      · next only => exact ⟨[byte], _, bytes, rfl, .last only inside⟩
      · next more =>
        obtain ⟨later, character, rest, rfl, completes⟩ := inductionHypothesis wellFormed
        exact ⟨byte :: later, character, rest, rfl,
          .next (Nat.lt_of_not_le more) inside completes⟩
    · simp at wellFormed

theorem validCode {value : Nat} (valid : value.isValidChar) :
    (Char.ofNat value).val.toNat = value := by
  rw [Char.ofNat, dif_pos valid]
  rfl

theorem ofNatByte {value : Nat} (byte : UInt8) (same : value = byte.toNat) :
    UInt8.ofNat value = byte := by
  rw [same, UInt8.ofNat_toNat]

theorem isContinuation {byte : UInt8} :
    (0x80 : UInt8) ≤ byte ∧ byte ≤ 0xBF ↔ 0x80 ≤ byte.toNat ∧ byte.toNat ≤ 0xBF :=
  Iff.rfl

/-- The byte of a one-byte character encodes it. -/
theorem encodeAscii {byte : UInt8} (isAscii : byte < 0x80) :
    String.utf8EncodeChar (Char.ofNat byte.toNat) = [byte] := by
  have small : byte.toNat < 0x80 := UInt8.lt_iff_toNat_lt.mp isAscii
  rw [String.utf8EncodeChar, validCode (.inl (by omega)), if_pos (by omega), UInt8.ofNat_toNat]

/-- A leading byte and the bytes that complete it are the encoding of the character. -/
theorem Completes.encoded {byte : UInt8} {begun : PartialCharacter} {later : List UInt8}
    {character : Char} (leads : leadByte byte = ([], some begun))
    (completes : Completes begun later character) :
    String.utf8EncodeChar character = byte :: later := by
  obtain ⟨lower, upper⟩ := leadBounds leads
  by_cases two : byte.toNat < 0xE0
  · rw [leadOfTwo lower two, Prod.mk.injEq, Option.some.injEq] at leads
    obtain ⟨-, rfl⟩ := leads
    obtain _ | more := completes
    · next second _ bounds =>
      have inSecond := isContinuation.mp bounds
      rw [String.utf8EncodeChar, validCode (.inl (by omega)), if_neg (by omega), if_pos (by omega),
        ofNatByte byte (by omega), ofNatByte second (by omega)]
    · omega
  by_cases three : byte.toNat < 0xF0
  · obtain ⟨lowest, highest, begins, secondBounds⟩ := leadOfThree (Nat.not_lt.mp two) three
    rw [begins, Prod.mk.injEq, Option.some.injEq] at leads
    obtain ⟨-, rfl⟩ := leads
    obtain only | ⟨-, bounds, _ | more⟩ := completes
    · omega
    · next second third _ thirdBounds =>
      have inSecond := (secondBounds second).mp bounds
      have inThird := isContinuation.mp thirdBounds
      have valid : (((byte.toNat - 0xE0) * 64 + (second.toNat - 0x80)) * 64 +
          (third.toNat - 0x80)).isValidChar := by
        unfold Nat.isValidChar
        omega
      rw [String.utf8EncodeChar, validCode valid, if_neg (by omega), if_neg (by omega),
        if_pos (by omega), (divisionsNested _).1, ofNatByte byte (by omega),
        ofNatByte second (by omega), ofNatByte third (by omega)]
    · omega
  · obtain ⟨lowest, highest, begins, secondBounds⟩ := leadOfFour (Nat.not_lt.mp three) upper
    rw [begins, Prod.mk.injEq, Option.some.injEq] at leads
    obtain ⟨-, rfl⟩ := leads
    obtain only | ⟨-, bounds, only | ⟨-, thirdBounds, _ | more⟩⟩ := completes
    · omega
    · omega
    · next second third fourth _ fourthBounds =>
      have inSecond := (secondBounds second).mp bounds
      have inThird := isContinuation.mp thirdBounds
      have inFourth := isContinuation.mp fourthBounds
      have valid : ((((byte.toNat - 0xF0) * 64 + (second.toNat - 0x80)) * 64 +
          (third.toNat - 0x80)) * 64 + (fourth.toNat - 0x80)).isValidChar := by
        unfold Nat.isValidChar
        omega
      rw [String.utf8EncodeChar, validCode valid, if_neg (by omega), if_neg (by omega),
        if_neg (by omega), (divisionsNested _).1, (divisionsNested _).2,
        ofNatByte byte (by omega), ofNatByte second (by omega),
        ofNatByte third (by omega), ofNatByte fourth (by omega)]
    · omega

theorem Completes.lastOf {missing value code : Nat} {lowest highest byte : UInt8}
    (only : missing ≤ 1) (bounds : lowest ≤ byte ∧ byte ≤ highest)
    (total : value * 64 + (byte.toNat - 0x80) = code) :
    Completes ⟨missing, value, lowest, highest⟩ [byte] (Char.ofNat code) :=
  total ▸ .last only bounds

/-- A character beyond ASCII is encoded as a leading byte and the bytes that complete it. -/
theorem encodingCompletes {character : Char} (beyond : 0x7F < character.val.toNat) :
    ∃ byte begun later, String.utf8EncodeChar character = byte :: later ∧
      leadByte byte = ([], some begun) ∧ Completes begun later character := by
  have same : Char.ofNat character.val.toNat = character := character.ofNat_toNat
  have valid := character.valid
  simp only [UInt32.isValidChar, Nat.isValidChar] at valid
  have toNat : ∀ value, value < 256 → (UInt8.ofNat value).toNat = value := fun value small => by
    rw [UInt8.toNat_ofNat']
    omega
  unfold String.utf8EncodeChar
  simp only [divisionsNested]
  generalize character.val.toNat = code at *
  subst same
  rw [if_neg (Nat.not_le.mpr beyond)]
  split_ifs with two three
  · have lead := toNat (code / 64 % 32 + 192) (by omega)
    have second := toNat (code % 64 + 128) (by omega)
    exact ⟨_, _, _, rfl, leadOfTwo (by omega) (by omega),
      .lastOf (by omega) (isContinuation.mpr (by omega)) (by omega)⟩
  · have lead := toNat (code / 64 / 64 % 16 + 224) (by omega)
    have second := toNat (code / 64 % 64 + 128) (by omega)
    have third := toNat (code % 64 + 128) (by omega)
    obtain ⟨_, _, begins, bounds⟩ := @leadOfThree (UInt8.ofNat (code / 64 / 64 % 16 + 224))
      (by omega) (by omega)
    exact ⟨_, _, _, rfl, begins, .next (by omega) ((bounds _).mpr (by omega))
      (.lastOf (by omega) (isContinuation.mpr (by omega)) (by omega))⟩
  · have lead := toNat (code / 64 / 64 / 64 % 8 + 240) (by omega)
    have second := toNat (code / 64 / 64 % 64 + 128) (by omega)
    have third := toNat (code / 64 % 64 + 128) (by omega)
    have fourth := toNat (code % 64 + 128) (by omega)
    obtain ⟨_, _, begins, bounds⟩ := @leadOfFour
      (UInt8.ofNat (code / 64 / 64 / 64 % 8 + 240)) (by omega) (by omega)
    exact ⟨_, _, _, rfl, begins, .next (by omega) ((bounds _).mpr (by omega))
      (.next (by omega) (isContinuation.mpr (by omega))
        (.lastOf (by omega) (isContinuation.mpr (by omega)) (by omega)))⟩

theorem decodeCharacter (character : Char) (bytes : List UInt8) :
    decodeLossily (String.utf8EncodeChar character ++ bytes) =
      character :: decodeLossily bytes := by
  by_cases isAscii : character.val.toNat ≤ 0x7F
  · have byte : (UInt8.ofNat character.val.toNat).toNat = character.val.toNat := by
      rw [UInt8.toNat_ofNat']
      omega
    have small : UInt8.ofNat character.val.toNat < 0x80 := by
      rw [UInt8.lt_iff_toNat_lt, byte]
      exact Nat.lt_succ_of_le isAscii
    rw [String.utf8EncodeChar, if_pos isAscii, List.singleton_append, decodeLossily, decodeFromCons,
      decodeByteEnds (by rintro _ ⟨⟩) small, byte]
    exact congrArg (· :: _) character.ofNat_toNat
  · obtain ⟨byte, begun, later, encodes, leads, completes⟩ :=
      encodingCompletes (Nat.not_le.mp isAscii)
    rw [encodes, List.cons_append, decodeLossily, decodeFromCons, decodeByte, leads]
    exact completes.decoded bytes

/-- An encoded text is decoded to itself. -/
theorem decodeEncoded (text : List Char) (bytes : List UInt8) :
    decodeLossily (encodedText text ++ bytes) = text ++ decodeLossily bytes := by
  induction text with
  | nil => rfl
  | cons character text inductionHypothesis =>
    rw [encodedTextCons, List.append_assoc, decodeCharacter, inductionHypothesis, List.cons_append]

/-- Bytes that are decoded without a replacement character encode what they are decoded to. -/
theorem encodedOfDecoded {bytes : List UInt8}
    (wellFormed : replacementCharacter ∉ decodeLossily bytes) :
    encodedText (decodeLossily bytes) = bytes := by
  induction size : bytes.length using Nat.strongRecOn generalizing bytes with
  | ind length inductionHypothesis =>
    cases bytes with
    | nil => rfl
    | cons byte bytes =>
      have decoded : decodeLossily (byte :: bytes) =
          (leadByte byte).1 ++ decodeFrom (leadByte byte).2 bytes := decodeFromCons none byte bytes
      rw [List.length_cons] at size
      rcases leadCases byte with ⟨isAscii, single⟩ | malformed | ⟨begun, leads⟩
      · rw [decoded, single, List.singleton_append] at wellFormed ⊢
        have rest := inductionHypothesis bytes.length (by omega)
          (fun inside => wellFormed (List.mem_cons_of_mem _ inside)) rfl
        rw [encodedTextCons, encodeAscii isAscii]
        exact congrArg (byte :: ·) rest
      · rw [decoded, malformed] at wellFormed
        exact absurd List.mem_cons_self wellFormed
      · rw [decoded, leads, List.nil_append] at wellFormed ⊢
        obtain ⟨later, character, rest, rfl, completes⟩ := completesOfDecoded wellFormed
        rw [completes.decoded] at wellFormed ⊢
        have shorter := inductionHypothesis rest.length (by rw [List.length_append] at size; omega)
          (fun inside => wellFormed (List.mem_cons_of_mem _ inside)) rfl
        rw [encodedTextCons, completes.encoded leads, shorter, List.cons_append]

end LintRepair.Text
