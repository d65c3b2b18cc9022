/-
This file shows that every string and every array of strings can be written.
-/

import LintRepair.Proofs.LintReport.Writing
import LintRepair.Proofs.Toml.Line

namespace LintRepair.Toml

section Lines

theorem gapNil : GapText [] :=
  ⟨[], [], .none, spaceNil, rfl⟩

/-- A line that holds nothing else ends with its line feed. -/
theorem lineFeedEnds : LineEnd ['\n'] :=
  ⟨[], ['\n'], by decide, ⟨[], [], spaceNil, .inl rfl, rfl⟩, rfl⟩

end Lines

section Strings

/-- A character of eight bits is written by its code. -/
theorem octetWritten {character : Char} (small : character.toNat < 256) :
    CharacterText character ['\\', 'u', '0', '0', (character.toNat / 16).digitChar,
      (character.toNat % 16).digitChar] := by
  have isDigit (digit : Nat) (fits : digit < 16) :
      LintReport.HexadecimalDigit digit digit.digitChar :=
    ⟨fits, .inl rfl⟩
  have areDigits : List.Forall₂ LintReport.HexadecimalDigit
      [0, 0, character.toNat / 16, character.toNat % 16]
      ['0', '0', (character.toNat / 16).digitChar, (character.toNat % 16).digitChar] :=
    .cons (isDigit 0 (by decide)) (.cons (isDigit 0 (by decide))
      (.cons (isDigit _ (by omega)) (.cons (isDigit _ (by omega)) .nil)))
  refine .code ?_ areDigits ?_
  · exact List.mem_cons_self
  · simp only [codeValue, List.foldl_cons, List.foldl_nil]
    omega

/-- Every character can be written, if need be by its code. -/
theorem characterWritten (character : Char) : ∃ written, CharacterText character written := by
  by_cases isPlain : IsPlain character
  · exact ⟨_, .plain isPlain⟩
  by_cases isQuote : character = '"'
  · subst isQuote
    exact ⟨_, .letter (by decide : ('"', '"') ∈ letterEscapes)⟩
  by_cases isBackslash : character = '\\'
  · subst isBackslash
    exact ⟨_, .letter (by decide : ('\\', '\\') ∈ letterEscapes)⟩
  have control : character < ' ' ∨ character = '\x7f' := by
    by_contra printable
    obtain ⟨notBelow, notDelete⟩ := not_or.mp printable
    have isText : isTextCharacter character := by
      simp [isTextCharacter, Char.not_lt.mp notBelow, notDelete]
    exact isPlain ⟨isText, isQuote, isBackslash⟩
  have small : character.toNat < 256 := by
    rcases control with below | rfl
    · exact lt_trans (show character.toNat < ' '.toNat from below) (by decide)
    · decide
  exact ⟨_, octetWritten small⟩

theorem escapedWritten (text : List Char) : ∃ written, EscapedText text written := by
  induction text with
  | nil => exact ⟨_, .nil⟩
  | cons character text inductionHypothesis =>
    obtain ⟨first, isFirst⟩ := characterWritten character
    obtain ⟨others, areOthers⟩ := inductionHypothesis
    exact ⟨_, .cons isFirst areOthers⟩

theorem stringWritten (value : String) : ∃ text, StringText value text := by
  obtain ⟨inside, escaped⟩ := escapedWritten value.toList
  exact ⟨_, inside, escaped, rfl⟩

/-- Plain characters stand for themselves. -/
theorem plainEscaped {text : List Char} (plain : ∀ character ∈ text, IsPlain character) :
    EscapedText text text := by
  induction text with
  | nil => exact .nil
  | cons character text inductionHypothesis =>
    obtain ⟨isPlain, others⟩ := List.forall_mem_cons.mp plain
    exact .cons (.plain isPlain) (inductionHypothesis others)

theorem listedWritten (items : List String) : ∃ text, Listed items text := by
  induction items with
  | nil => exact ⟨_, .none gapNil⟩
  | cons item items inductionHypothesis =>
    obtain ⟨text, isItem⟩ := stringWritten item
    obtain ⟨rest, listed⟩ := inductionHypothesis
    exact ⟨_, .next gapNil isItem gapNil listed⟩

theorem arrayWritten (items : List String) : ∃ text, ArrayText items text := by
  obtain ⟨inside, listed⟩ := listedWritten items
  exact ⟨_, inside, listed, rfl⟩

end Strings

section Lines

theorem pairWritten {name : String} {Text : List Char → Prop} {spelled value : List Char}
    (isKey : KeyText name spelled) (isValue : Text value) :
    PairText name Text (spelled ++ '=' :: (value ++ ['\n'])) :=
  ⟨[], spelled, [], [], value, ['\n'], spaceNil, isKey, spaceNil, spaceNil, isValue, lineFeedEnds,
    rfl⟩

theorem headerWritten {name : String} {spelled : List Char} (isKey : KeyText name spelled) :
    HeaderText name ('[' :: (spelled ++ [']', '\n'])) :=
  ⟨[], [], spelled, [], ['\n'], spaceNil, spaceNil, isKey, spaceNil, lineFeedEnds, rfl⟩

theorem linesWritten {Item : Type} {Text : Item → List Char → Prop} {items : List Item}
    (each : ∀ item ∈ items, ∃ line, Text item line) : ∃ text, Lines Text items text := by
  induction items with
  | nil => exact ⟨_, .none .none⟩
  | cons item items inductionHypothesis =>
    obtain ⟨⟨line, isLine⟩, others⟩ := List.forall_mem_cons.mp each
    obtain ⟨rest, areLines⟩ := inductionHypothesis others
    exact ⟨_, .next .none isLine areLines⟩

end Lines

end LintRepair.Toml
