/-
This file says which lines a text has, in terms of the text alone: exactly one buffer holds them, and
their number follows from the line feeds of the text.
-/

import LintRepair.Proofs.Buffer

namespace LintRepair.Buffer

/-- A buffer holds the lines of a text. Written one behind another they are the text; a line feed
stands in an ending only, a carriage return before it belongs to the ending, and just the last line
may lack an ending, in which case it is not empty. -/
structure Delimits (buffer : Buffer) (text : List Char) : Prop where
  written : buffer.contents = text
  noLineFeed : ∀ line ∈ buffer.lines, '\n' ∉ line.text
  noReturn : ∀ line ∈ buffer.lines, line.ending = .lineFeed → line.text.getLast? ≠ some '\r'
  terminated : ∀ line ∈ buffer.lines.dropLast, line.ending ≠ .none
  lastFilled : ∀ line, buffer.lines.getLast? = some line → line.ending = .none → line.text ≠ []

theorem Delimits.regular {buffer : Buffer} {text : List Char} (delimits : buffer.Delimits text) :
    buffer.Regular :=
  ⟨fun line inside => ⟨delimits.noLineFeed line inside, delimits.noReturn line inside⟩,
    delimits.terminated⟩

theorem Delimits.notEndsBlank {buffer : Buffer} {text : List Char}
    (delimits : buffer.Delimits text) : ¬ buffer.EndsBlank :=
  fun blank => delimits.lastFilled _ blank rfl rfl

theorem delimitsOfText (text : List Char) : (ofText text).Delimits text := by
  have regular := regularOfText text
  refine ⟨contentsOfText text, fun line inside => (regular.lines line inside).noLineFeed,
    fun line inside => (regular.lines line inside).noReturn, regular.terminated, ?_⟩
  intro line last unterminated empty
  obtain ⟨lineText, ending⟩ := line
  obtain rfl : ending = .none := unterminated
  obtain rfl : lineText = [] := empty
  exact notEndsBlankOfText text last

/-- A text has its lines in one way only. -/
theorem delimits_iff {buffer : Buffer} {text : List Char} :
    buffer.Delimits text ↔ ofText text = buffer := by
  constructor
  · intro delimits
    rw [← delimits.written, ofTextContents delimits.regular, settled,
      if_neg delimits.notEndsBlank]
  · intro cut
    rw [← cut]
    exact delimitsOfText text

/-- Every line feed ends a line, and characters behind the last line feed are one line more. -/
theorem sizeOfText (text : List Char) :
    (ofText text).size =
      text.count '\n' + if text ≠ [] ∧ text.getLast? ≠ some '\n' then 1 else 0 := by
  induction text using Text.separateInduction '\n' with
  | last part noLineFeed =>
    have none : part.count '\n' = 0 := List.count_eq_zero.mpr noLineFeed
    have notLast : part.getLast? ≠ some '\n' := fun last => noLineFeed (List.mem_of_getLast? last)
    rw [ofTextUnterminated noLineFeed, none]
    by_cases empty : part = []
    · simp [size, empty]
    · simp [size, empty, notLast]
  | further part text noLineFeed inductionHypothesis =>
    have none : part.count '\n' = 0 := List.count_eq_zero.mpr noLineFeed
    have grows : (ofText (part ++ '\n' :: text)).size = (ofText text).size + 1 := by
      rw [ofTextTerminated noLineFeed]
      rfl
    rw [grows, inductionHypothesis, List.count_append, none, List.count_cons_self]
    cases text with
    | nil => simp
    | cons character text =>
      have sameLast : (part ++ '\n' :: character :: text).getLast? =
          (character :: text).getLast? := by
        rw [List.getLast?_append, List.getLast?_cons_cons, List.getLast?_cons, Option.some_or]
      rw [sameLast, Nat.zero_add, Nat.add_right_comm]
      simp

end LintRepair.Buffer
