/-
This file shows which lines with malformed bytes yield a diagnostic all the same: a message stands
in them as its own bytes, and the malformed ones stand in its path or behind it.
-/

import LintRepair.Proofs.CompilerOutput.Lines
import LintRepair.Proofs.CompilerOutput.Message
import LintRepair.Proofs.FileTree.Update
import LintRepair.Proofs.Text.Encoding
import Mathlib.Data.List.Induction

namespace LintRepair.CompilerOutput

open Text Unicode

/-- Bytes that encode no text. -/
def isMalformed (bytes : List UInt8) : Bool :=
  (String.fromUTF8? ⟨bytes.toArray⟩).isNone

/-- An output without its malformed lines. -/
def withoutMalformed (bytes : List UInt8) : List UInt8 :=
  [0x0A].intercalate ((separate 0x0A bytes).filter fun line => !isMalformed line)

/-- The bytes of a message stand in a line behind a part of it. -/
def MessageBehind (path line : List UInt8) : Prop :=
  ∃ unread trailing, UnreadName.Formed unread ∧ line = path ++ (encodedText unread.text ++ trailing)

/-- A line of bytes announces an unread name: a message stands behind a non-empty path, none stands
behind a shorter one, and its line is a number of 64 bits. -/
structure Announces (line path : List UInt8) (unread : UnreadName) : Prop where
  formed : unread.Formed
  whole : ∃ trailing, line = path ++ (encodedText unread.text ++ trailing)
  filled : path ≠ []
  shortest : ∀ shorter, shorter ≠ [] → shorter.length < path.length → ¬ MessageBehind shorter line
  numbered : (∀ digit ∈ unread.line, digit.isDigit) ∧ numeralValue unread.line < wordLimit

theorem encodedParenthesis (text : List Char) :
    encodedText ('(' :: text) = 0x28 :: encodedText text := rfl

/-- A message is decoded from its own bytes, whatever stands around it. -/
theorem decodeAroundMessage (path trailing : List UInt8) (unread : UnreadName) :
    decodeLossily (path ++ (encodedText unread.text ++ trailing)) =
      decodeLossily path ++ (unread.text ++ decodeLossily trailing) := by
  have parts := @decodeAtAscii none (by rintro _ ⟨⟩) 0x28 (by decide) path
    (encodedText unread.enclosed ++ trailing)
  rw [decodeEncoded] at parts
  exact parts

theorem messageStops (unread : UnreadName) : ∃ sentence, unread.enclosed = sentence ++ ['.'] := by
  obtain ⟨before, ends⟩ := unread.endingInside
  have stop : unreadEnding = unreadEnding.dropLast ++ ['.'] := by decide +kernel
  exact ⟨before ++ unreadEnding.dropLast, by rw [← ends, List.append_assoc, ← stop]⟩

/-- Where a decoded line holds a message, the line holds its bytes. -/
theorem messageFromBytes {unread : UnreadName} (formed : unread.Formed) {line : List UInt8}
    {front behind : List Char} (decoded : decodeLossily line = front ++ (unread.text ++ behind)) :
    ∃ path trailing, line = path ++ (encodedText unread.text ++ trailing) ∧
      decodeLossily path = front ∧ decodeLossily trailing = behind := by
  have divided : ∀ {bytes : List UInt8} {front behind : List Char} {character : Char},
      character.toNat < 0x80 → character ≠ '\x00' →
      decodeLossily bytes = front ++ character :: behind →
      ∃ first byte second, bytes = first ++ byte :: second ∧ byte.toNat = character.toNat ∧
        decodeLossily first = front ∧ decodeLossily second = behind :=
    fun isAscii notZero => decodeDivided (by rintro _ ⟨⟩) (by rintro _ ⟨⟩) isAscii notZero
  have opening : decodeLossily line = front ++ '(' :: (unread.enclosed ++ behind) := decoded
  obtain ⟨path, byte, second, rfl, isOpening, decodedPath, inner⟩ :=
    divided (by decide) (by decide) opening
  obtain rfl : byte = 0x28 := UInt8.toNat_inj.mp isOpening
  -- The full stop at the end of the message divides it from what stands behind it.
  obtain ⟨sentence, ends⟩ := messageStops unread
  rw [ends, List.append_assoc] at inner
  obtain ⟨written, stop, trailing, rfl, isStop, decodedSentence, decodedTrailing⟩ :=
    divided (by decide) (by decide) inner
  obtain rfl : stop = 0x2E := UInt8.toNat_inj.mp isStop
  have wellFormed : replacementCharacter ∉ decodeLossily written := by
    have outside : replacementCharacter ∉ unread.enclosed :=
      formed.without (by decide +kernel) (by decide +kernel) (by decide +kernel) (by decide +kernel)
    rw [decodedSentence]
    exact fun inside => outside (ends ▸ List.mem_append_left _ inside)
  refine ⟨path, trailing, ?_, decodedPath, decodedTrailing⟩
  have bytes : encodedText unread.text = 0x28 :: (written ++ [0x2E]) := by
    rw [UnreadName.text, encodedParenthesis, ends, encodedTextAppend, ← decodedSentence,
      encodedOfDecoded wellFormed]
    rfl
  simp [bytes]

/-- The parenthesis of a message divides a longer part of the line. -/
theorem decodedShorter {line shorter longer : List UInt8} (goesOn : MessageBehind shorter line)
    (isPart : longer <+: line) (less : shorter.length < longer.length) :
    (decodeLossily shorter).length < (decodeLossily longer).length := by
  obtain ⟨unread, trailing, -, rfl⟩ := goesOn
  obtain ⟨rest, whole⟩ := isPart
  rcases List.append_eq_append_iff.mp whole with ⟨between, rfl, -⟩ | ⟨between, rfl, inner⟩
  · rw [List.length_append] at less
    omega
  · cases between with
    | nil => simp at less
    | cons byte between =>
      obtain ⟨rfl, -⟩ := List.cons_eq_cons.mp inner
      have parts := @decodeAtAscii none (by rintro _ ⟨⟩) 0x28 (by decide) shorter
        between
      have sameLength := congrArg List.length parts
      rw [List.length_append, List.length_cons] at sameLength
      change (decodeFrom none shorter).length < (decodeFrom none (shorter ++ 0x28 :: between)).length
      omega

/-- Carriage returns at the end of a text belong to no message. -/
theorem messageBeforeReturns {front text returns trailing : List Char} {unread : UnreadName}
    (areReturns : ∀ character ∈ returns, character = '\r')
    (whole : text ++ returns = front ++ (unread.text ++ trailing)) :
    ∃ before, text = front ++ (unread.text ++ before) := by
  rw [← List.append_assoc] at whole
  rcases List.append_eq_append_iff.mp whole with ⟨within, message, rfl⟩ | ⟨before, rfl, -⟩
  · cases within using List.reverseRecOn with
    | nil => exact ⟨[], by rw [List.append_nil, message, List.append_nil]⟩
    | append_singleton within last =>
      obtain ⟨sentence, stops⟩ := messageStops unread
      rw [UnreadName.text, stops, ← List.cons_append, ← List.append_assoc, ← List.append_assoc]
        at message
      have isStop := List.append_inj_right' message rfl
      have isReturn := areReturns last (by simp)
      simp [isReturn] at isStop
  · exact ⟨before, List.append_assoc _ _ _⟩

theorem goesOnReturned {text returns : List Char}
    (areReturns : ∀ character ∈ returns, character = '\r') :
    GoesOn (text ++ returns) ↔ GoesOn text := by
  constructor
  · rintro ⟨unread, trailing, formed, whole⟩
    obtain ⟨before, whole⟩ := @messageBeforeReturns [] _ _ _ _ areReturns whole
    exact ⟨unread, before, formed, whole⟩
  · rintro ⟨unread, trailing, formed, rfl⟩
    exact ⟨unread, trailing ++ returns, formed, List.append_assoc _ _ _⟩

theorem tellsReturned {text returns : List Char} {unread : UnreadName} {diagnostic : Diagnostic}
    (areReturns : ∀ character ∈ returns, character = '\r') :
    Tells (text ++ returns) unread diagnostic ↔ Tells text unread diagnostic := by
  constructor
  · intro tells
    obtain ⟨trailing, whole⟩ := tells.whole
    refine { tells with
      whole := messageBeforeReturns areReturns whole
      shortest := fun shorter rest parts filled isShorter goesOn => ?_ }
    refine tells.shortest shorter (rest ++ returns) ?_ filled isShorter
      ((goesOnReturned areReturns).mpr goesOn)
    rw [parts, List.append_assoc]
  · intro tells
    obtain ⟨trailing, whole⟩ := tells.whole
    refine { tells with
      whole := ⟨trailing ++ returns, by rw [whole]; simp⟩
      shortest := fun shorter rest parts filled isShorter goesOn => ?_ }
    -- A shorter path ends before the carriage returns.
    rcases List.append_eq_append_iff.mp parts with ⟨more, longer, -⟩ | ⟨before, within, rfl⟩
    · have sameLength := congrArg List.length longer
      rw [whole, List.length_append, List.length_append] at sameLength
      omega
    · exact tells.shortest shorter before within filled isShorter
        ((goesOnReturned areReturns).mp goesOn)

theorem diagnosticReturned (text : List Char) :
    diagnostic? (withoutReturns text) = diagnostic? text := by
  have areReturns : ∀ character ∈ (text.reverse.takeWhile (· = '\r')).reverse, character = '\r' := by
    intro character inside
    simpa using List.mem_takeWhile_imp (List.mem_reverse.mp inside)
  have parts : withoutReturns text ++ (text.reverse.takeWhile (· = '\r')).reverse = text := by
    rw [withoutReturns, ← List.reverse_append, List.takeWhile_append_dropWhile,
      List.reverse_reverse]
  refine Option.ext fun diagnostic => ?_
  have toldAlike : (∃ unread, Tells (withoutReturns text) unread diagnostic) ↔
      ∃ unread, Tells text unread diagnostic := by
    conv_rhs => rw [← parts]
    simp only [tellsReturned areReturns]
  exact ⟨fun read => (toldAlike.mp (diagnosticTells read)).elim fun _ => tellsDiagnostic,
    fun read => (toldAlike.mpr (diagnosticTells read)).elim fun _ => tellsDiagnostic⟩

/-- A line yields a diagnostic exactly if its bytes announce an unread name. -/
theorem announced_iff {line : List UInt8} (oneLine : 0x0A ∉ line) :
    (diagnostic? (decodeLossily line)).isSome ↔ ∃ path unread, Announces line path unread := by
  constructor
  · intro read
    obtain ⟨diagnostic, read⟩ := Option.isSome_iff_exists.mp read
    obtain ⟨unread, tells⟩ := diagnosticTells read
    obtain ⟨_, whole⟩ := tells.whole
    obtain ⟨path, trailing, rfl, decodedPath, rfl⟩ := messageFromBytes tells.formed whole
    refine ⟨path, unread, tells.formed, ⟨trailing, rfl⟩, ?_, ?_, ?_⟩
    · rintro rfl
      exact tells.pathFilled decodedPath.symm
    · intro shorter filled isShorter goesOn
      have less := decodedShorter goesOn (List.prefix_append path _) isShorter
      obtain ⟨other, rest, formed, parts⟩ := goesOn
      rw [decodedPath] at less
      refine tells.shortest (decodeLossily shorter) (other.text ++ decodeLossily rest) ?_
        (decodeFilled (.inr filled)) less ⟨other, _, formed, rfl⟩
      rw [parts, decodeAroundMessage]
    · obtain ⟨areDigits, value, inRange⟩ := tells.line
      exact ⟨areDigits, value ▸ inRange⟩
  · rintro ⟨path, unread, announces⟩
    obtain ⟨trailing, rfl⟩ := announces.whole
    have filled : decodeLossily path ≠ [] := decodeFilled (.inr announces.filled)
    have pathOneLine : '\n' ∉ decodeLossily path :=
      noLineFeedDecoded (by rintro _ ⟨⟩) fun inside => oneLine (List.mem_append_left _ inside)
    have noEarlier : NoEarlier [] (decodeLossily path)
        (unread.text ++ decodeLossily trailing) := by
      rintro first second parts secondFilled firstFilled ⟨other, behind, formed, rest⟩
      have decoded := decodeAroundMessage path trailing unread
      rw [parts, List.append_assoc, rest] at decoded
      obtain ⟨shorter, after, whole, rfl, -⟩ := messageFromBytes formed decoded
      have fewer : (decodeLossily shorter).length < (decodeLossily path).length := by
        rw [parts, List.length_append]
        exact Nat.lt_add_of_pos_right (List.length_pos_iff.mpr secondFilled)
      have isShorter : shorter.length < path.length := by
        by_contra notShorter
        have isPart : path <+: shorter :=
          List.prefix_of_prefix_length_le (List.prefix_append path _)
            (whole ▸ List.prefix_append shorter _) (Nat.not_lt.mp notShorter)
        rcases isPart.length_le.eq_or_lt with same | longer
        · rw [isPart.eq_of_length same] at fewer
          exact Nat.lt_irrefl _ fewer
        · exact Nat.lt_asymm fewer (decodedShorter ⟨unread, trailing, announces.formed, rfl⟩
            (whole ▸ List.prefix_append shorter _) longer)
      refine announces.shortest shorter ?_ isShorter ⟨other, after, formed, whole⟩
      rintro rfl
      exact firstFilled rfl
    have located : locate? [] (decodeLossily path ++ (unread.text ++ decodeLossily trailing)) =
        some ([].reverse ++ decodeLossily path, unread) :=
      readsPath filled pathOneLine (readsUnreadName announces.formed _) noEarlier
    have lineRead : numeral? wordLimit unread.line = some (numeralValue unread.line) :=
      numeral_eq_some_iff.mpr ⟨announces.formed.line.1, announces.numbered.1, rfl,
        announces.numbered.2⟩
    rw [decodeAroundMessage, diagnosticLocated located lineRead]
    rfl

/-- Parts without the separator are found again when they are joined by it. -/
theorem separateJoined {separator : UInt8} {parts : List (List UInt8)} (filled : parts ≠ [])
    (absent : ∀ part ∈ parts, separator ∉ part) :
    separate separator ([separator].intercalate parts) = parts := by
  induction parts with
  | nil => exact absurd rfl filled
  | cons part parts inductionHypothesis =>
    have whole := separateWhole (absent part List.mem_cons_self)
    cases parts with
    | nil => simpa using whole
    | cons next parts =>
      have rest := inductionHypothesis (List.cons_ne_nil _ _) fun other inside =>
        absent other (List.mem_cons_of_mem part inside)
      rw [List.intercalate_cons_cons, List.append_assoc, List.singleton_append, separateAppend,
        whole, rest, List.singleton_append]

/-- Items may be left out exactly if nothing comes of them. -/
theorem filterMapKept_iff {Item Result : Type} (result? : Item → Option Result)
    (isKept : Item → Bool) (items : List Item) :
    (items.filter isKept).filterMap result? = items.filterMap result? ↔
      ∀ item ∈ items, isKept item = false → result? item = none := by
  induction items with
  | nil => simp
  | cons item items inductionHypothesis =>
    rw [List.forall_mem_cons, ← inductionHypothesis]
    cases kept : isKept item with
    | true => cases gives : result? item <;> simp [kept, gives]
    | false =>
      cases gives : result? item with
      | none => simp [kept, gives]
      | some result =>
        -- The result of the item that is left out is missed.
        have fewer := ((List.filter_sublist (p := isKept) (l := items)).filterMap result?).length_le
        have missed : ((item :: items).filter isKept).filterMap result? ≠
            (item :: items).filterMap result? := by
          intro same
          rw [List.filter_cons_of_neg (by simp [kept]), List.filterMap_cons_some gives] at same
          rw [same, List.length_cons] at fewer
          omega
        simp [missed]

theorem diagnosticsWithoutMalformed (bytes : List UInt8) :
    diagnostics (withoutMalformed bytes) =
      ((separate 0x0A bytes).filter fun line => !isMalformed line).filterMap
        fun line => diagnostic? (withoutReturns (decodeLossily line)) := by
  cases kept : (separate 0x0A bytes).filter fun line => !isMalformed line with
  | nil =>
    rw [withoutMalformed, kept]
    rfl
  | cons line lines =>
    rw [diagnostics, withoutMalformed, kept, separateJoined (List.cons_ne_nil _ _)]
    intro part inside
    rw [← kept] at inside
    exact separatorNotInPart (List.mem_of_mem_filter inside)

/-- An output yields the same diagnostics without its malformed lines exactly if none of them
announces an unread name. A malformed line does so where a message stands in it and the malformed
bytes belong to the path or to what follows the message. -/
theorem malformedSkipped_iff (bytes : List UInt8) :
    diagnostics (withoutMalformed bytes) = diagnostics bytes ↔
      ∀ line ∈ separate 0x0A bytes, isMalformed line →
        ∀ path unread, ¬ Announces line path unread := by
  rw [diagnosticsWithoutMalformed, diagnostics, filterMapKept_iff]
  refine forall₂_congr fun line inside => ?_
  have told := announced_iff (separatorNotInPart inside)
  rw [diagnosticReturned, Bool.not_eq_false']
  refine imp_congr Iff.rfl ?_
  rw [← Option.not_isSome_iff_eq_none, told, not_exists]
  exact forall_congr' fun path => not_exists

/-- A byte that begins no character, in the place of a path. -/
def malformedPath : List UInt8 :=
  0xFF :: encodedText "(1,1): error TS6133: 'x' is declared but its value is never read.".toList

/-- The byte is decoded to a replacement character, which a path may hold. -/
theorem malformedLineTold : ¬ ∀ bytes, diagnostics (withoutMalformed bytes) = diagnostics bytes := by
  intro skipped
  have told : diagnostics malformedPath = [⟨⟨"\uFFFD"⟩, 1, some 1, "unused parameter",
      "TS6133: 'x' is declared but its value is never read.", some "x"⟩] := by
    decide +kernel
  have nothing : diagnostics (withoutMalformed malformedPath) = [] := by
    decide +kernel
  have same := skipped malformedPath
  rw [nothing, told] at same
  cases same

end LintRepair.CompilerOutput
