/-
This file shows that an output is read line by line: it makes no difference whether its bytes are
decoded before or after they are cut into lines, and no line sees the bytes of another.
-/

import LintRepair.CompilerOutput
import LintRepair.Proofs.Text.LossyDecoding

namespace LintRepair.CompilerOutput

open Text

/-- The bytes with a carriage return before every line feed. -/
def withReturns (bytes : List UInt8) : List UInt8 :=
  bytes.flatMap fun byte => if byte = 0x0A then [0x0D, 0x0A] else [byte]

/-- Bytes are cut at the same places as the text that they decode to. -/
theorem separateDecoded (bytes : List UInt8) :
    separate '\n' (decodeLossily bytes) = (separate 0x0A bytes).map decodeLossily := by
  induction bytes using separateInduction (0x0A : UInt8) with
  | last part absent =>
    have noLineFeed : '\n' ∉ decodeLossily part := noLineFeedDecoded (by rintro _ ⟨⟩) absent
    rw [separateWhole absent, separateWhole noLineFeed, List.map_singleton]
  | further part bytes absent inductionHypothesis =>
    have decoded : decodeLossily (part ++ 0x0A :: bytes) =
        decodeLossily part ++ '\n' :: decodeLossily bytes :=
      decodeAtAscii (by rintro _ ⟨⟩) (by decide) part bytes
    have noLineFeed : '\n' ∉ decodeLossily part := noLineFeedDecoded (by rintro _ ⟨⟩) absent
    rw [decoded, separateAppend, separateAppend, inductionHypothesis, separateWhole absent,
      separateWhole noLineFeed, List.map_append, List.map_singleton]

theorem diagnosticsAppend (first second : List UInt8) :
    diagnostics (first ++ 0x0A :: second) = diagnostics first ++ diagnostics second := by
  rw [diagnostics, separateAppend, List.filterMap_append]
  rfl

/-- A carriage return at the end of a line is not read. -/
theorem diagnosticsReturned {line : List UInt8} (absent : 0x0A ∉ line) :
    diagnostics (line ++ [0x0D]) = diagnostics line := by
  have decoded : decodeLossily (line ++ [0x0D]) = decodeLossily line ++ ['\r'] :=
    decodeAtAscii (by rintro _ ⟨⟩) (by decide) line []
  have stillAbsent : 0x0A ∉ line ++ [0x0D] := by simpa using absent
  rw [diagnostics, diagnostics, separateWhole absent, separateWhole stillAbsent,
    List.filterMap_cons, List.filterMap_cons, decoded]
  simp [withoutReturns]

theorem withReturnsLine {line : List UInt8} (absent : 0x0A ∉ line) : withReturns line = line := by
  induction line with
  | nil => rfl
  | cons byte line inductionHypothesis =>
    rw [List.mem_cons, not_or] at absent
    have rest : withReturns line = line := inductionHypothesis absent.2
    rw [withReturns, List.flatMap_cons, if_neg (Ne.symm absent.1), List.singleton_append]
    exact congrArg (byte :: ·) rest

theorem diagnosticsWithReturns (bytes : List UInt8) :
    diagnostics (withReturns bytes) = diagnostics bytes := by
  induction bytes using separateInduction (0x0A : UInt8) with
  | last part absent => rw [withReturnsLine absent]
  | further part bytes absent inductionHypothesis =>
    have returned : withReturns (part ++ 0x0A :: bytes) =
        (part ++ [0x0D]) ++ 0x0A :: withReturns bytes := by
      have line := withReturnsLine absent
      simp only [withReturns, List.flatMap_append, List.flatMap_cons] at line ⊢
      simp [line]
    rw [returned, diagnosticsAppend, diagnosticsAppend, inductionHypothesis,
      diagnosticsReturned absent]

/-- Every output is read, whatever bytes it holds. Its diagnostics are those of the lines of the
decoded text without the carriage returns at their ends, so that the two sides of a line feed are
read alone, and lines may as well end with a carriage return and a line feed. -/
theorem readLineByLine (bytes : List UInt8) :
    diagnostics bytes = (separate '\n' (decodeLossily bytes)).filterMap
        (fun line => diagnostic? (withoutReturns line)) ∧
      (∀ others, diagnostics (bytes ++ 0x0A :: others) =
        diagnostics bytes ++ diagnostics others) ∧
      diagnostics (withReturns bytes) = diagnostics bytes := by
  refine ⟨?_, diagnosticsAppend bytes, diagnosticsWithReturns bytes⟩
  rw [separateDecoded, List.filterMap_map]
  rfl

-- A character that breaks off at the end of a line takes no line feed along.
example : separate '\n' (decodeLossily [0x61, 0xE2, 0x82, 0x0A, 0xF0, 0x90, 0x0D, 0x0A, 0x62]) =
    ["a\uFFFD".toList, "\uFFFD\r".toList, "b".toList] := by
  decide

end LintRepair.CompilerOutput
