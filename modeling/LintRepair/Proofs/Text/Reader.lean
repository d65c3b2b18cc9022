/-
This file states what each reader takes from the front of a text.
-/

import LintRepair.Proofs.Unicode.CharacterClass
import LintRepair.Text.Reader
import Mathlib.Data.Option.Basic
import Mathlib.Data.List.TakeWhile

namespace LintRepair.Text

open Unicode

/-- The blanks that a reader skips. -/
theorem takesSkippedBlanks (text : List Char) :
    ∃ blanks, (∀ character ∈ blanks, isBlank character) ∧ text = blanks ++ skipBlanks text :=
  ⟨text.takeWhile isBlank, fun _ inside => List.mem_takeWhile_imp inside,
    List.takeWhile_append_dropWhile.symm⟩

theorem takesBlanks {text behind : List Char} (read : blanks? text = some behind) :
    ∃ blanks, blanks ≠ [] ∧ (∀ character ∈ blanks, isBlank character) ∧
      text = blanks ++ behind := by
  cases text with
  | nil => cases read
  | cons character text =>
    simp only [blanks?] at read
    split at read
    · next blank =>
      cases read
      obtain ⟨blanks, areBlank, whole⟩ := takesSkippedBlanks text
      refine ⟨character :: blanks, by simp, ?_, by rw [List.cons_append, ← whole]⟩
      simpa using ⟨blank, areBlank⟩
    · cases read

theorem readsMark (mark : Char) (rest : List Char) : literal? [mark] (mark :: rest) = some rest :=
  literalAppend [mark] rest

/-- A class stops before a text when no character of its front belongs to the class. -/
theorem stopsBefore {inClass : Char → Bool} {front rest : List Char}
    (outside : ∀ character ∈ front, inClass character = false)
    (stops : front = [] → rest.head?.any inClass = false) :
    (front ++ rest).head?.any inClass = false := by
  cases front with
  | nil => exact stops rfl
  | cons character front => simpa using outside character List.mem_cons_self

/-- White space is skipped up to the first other character. -/
theorem skipsBlanks {blanks rest : List Char} (areBlank : ∀ character ∈ blanks, isBlank character)
    (stops : rest.head?.any isBlank = false) : skipBlanks (blanks ++ rest) = rest := by
  rw [skipBlanks, List.dropWhile_append_of_pos areBlank]
  cases rest with
  | nil => rfl
  | cons character rest => exact List.dropWhile_cons_of_neg (by simpa using stops)

theorem readsBlanks {blanks rest : List Char} (notEmpty : blanks ≠ [])
    (areBlank : ∀ character ∈ blanks, isBlank character)
    (stops : rest.head?.any isBlank = false) : blanks? (blanks ++ rest) = some rest := by
  obtain ⟨first, blanks, rfl⟩ := List.exists_cons_of_ne_nil notEmpty
  obtain ⟨firstBlank, othersBlank⟩ := List.forall_mem_cons.mp areBlank
  rw [List.cons_append, blanks?, if_pos firstBlank, skipsBlanks othersBlank stops]

/-- A word starts at a word character exactly if no word character stands before it. -/
theorem wordStarts_iff {before : Option Char} {character : Char}
    (isWord : isWordCharacter character) :
    isWordBoundary before (some character) = true ↔ before.any isWordCharacter = false := by
  simp [isWordBoundary, isWord]

theorem takesRun {inClass : Char → Bool} {text run behind : List Char}
    (read : run? inClass text = some (run, behind)) :
    run ≠ [] ∧ (∀ character ∈ run, inClass character) ∧ text = run ++ behind := by
  unfold run? at read
  split at read
  · cases read
  · next notEmpty =>
    cases read
    exact ⟨notEmpty, fun _ inside => List.mem_takeWhile_imp inside,
      List.takeWhile_append_dropWhile.symm⟩

section

variable {inClass : Char → Bool} {run rest : List Char}
  (inside : ∀ character ∈ run, inClass character) (stops : rest.head?.any inClass = false)

include inside stops

theorem takeWhileRun : (run ++ rest).takeWhile inClass = run := by
  rw [List.takeWhile_append_of_pos inside]
  cases rest with
  | nil => simp
  | cons stop rest => rw [List.takeWhile_cons_of_neg (by simpa using stops), List.append_nil]

theorem dropWhileRun : (run ++ rest).dropWhile inClass = rest := by
  rw [List.dropWhile_append_of_pos inside]
  cases rest with
  | nil => rfl
  | cons stop rest => exact List.dropWhile_cons_of_neg (by simpa using stops)

end

/-- Where a run ends the text does not go on with the class. -/
theorem dropWhileStops (inClass : Char → Bool) (text : List Char) :
    (text.dropWhile inClass).head?.any inClass = false := by
  have stops := List.head?_dropWhile_not inClass text
  cases first : (text.dropWhile inClass).head? with
  | none => rfl
  | some character => simpa [first] using stops

/-- A run is read up to the first character of another class. -/
theorem readsRun {inClass : Char → Bool} {run rest : List Char} (notEmpty : run ≠ [])
    (inside : ∀ character ∈ run, inClass character) (stops : rest.head?.any inClass = false) :
    run? inClass (run ++ rest) = some (run, rest) := by
  simp only [run?, takeWhileRun inside stops, dropWhileRun inside stops]

/-- The gap and the name behind a keyword are read up to a text that does not go on with them. -/
theorem readsName {gap name rest : List Char} (gapNotEmpty : gap ≠ [])
    (gapBlank : ∀ character ∈ gap, isBlank character) (nameNotEmpty : name ≠ [])
    (isWord : ∀ character ∈ name, isWordCharacter character)
    (stops : rest.head?.any isWordCharacter = false) :
    blanks? (gap ++ (name ++ rest)) = some (name ++ rest) ∧
      word? (name ++ rest) = some (name, rest) := by
  constructor
  · apply readsBlanks gapNotEmpty gapBlank
    apply stopsBefore (fun character inside => wordNotBlank (isWord character inside))
    exact fun empty => absurd empty nameNotEmpty
  · exact readsRun nameNotEmpty isWord stops

theorem takesQuote {text behind : List Char} (read : quote? text = some behind) :
    ∃ mark, isQuote mark ∧ text = mark :: behind := by
  cases text with
  | nil => cases read
  | cons mark text =>
    simp only [quote?] at read
    split at read
    · next isMark =>
      cases read
      exact ⟨mark, isMark, rfl⟩
    · cases read

/-- A quoted argument as it is written. -/
def QuotedForm (part argument : List Char) : Prop :=
  ∃ first last, isQuote first ∧ isQuote last ∧ argument ≠ [] ∧
    (∀ character ∈ argument, isQuote character = false) ∧
    part = '(' :: first :: argument ++ [last, ')']

theorem takesQuotedArgument {text argument behind : List Char}
    (read : quotedArgument? text = some (argument, behind)) :
    ∃ part, QuotedForm part argument ∧ text = part ++ behind := by
  simp only [quotedArgument?, Option.bind_eq_bind, Option.bind_eq_some_iff, Option.pure_def,
    Option.some.injEq, Prod.mk.injEq, literal_eq_some_iff] at read
  obtain ⟨opened, rfl, quoted, readFirst, ⟨inner, unquoted⟩, readRun, closing, readLast, closed,
    rfl, rfl, rfl⟩ := read
  obtain ⟨first, isFirst, rfl⟩ := takesQuote readFirst
  obtain ⟨notEmpty, noQuotes, rfl⟩ := takesRun readRun
  obtain ⟨last, isLast, rfl⟩ := takesQuote readLast
  exact ⟨_, ⟨first, last, isFirst, isLast, notEmpty, by simpa using noQuotes, rfl⟩, by simp⟩

theorem readsQuotedArgument {first last : Char} {source behind : List Char} (isFirst : isQuote first)
    (isLast : isQuote last) (notEmpty : source ≠ [])
    (noQuotes : ∀ character ∈ source, isQuote character = false) :
    quotedArgument? ('(' :: first :: (source ++ last :: ')' :: behind)) = some (source, behind) := by
  have readSource : run? (fun character => !isQuote character) (source ++ last :: ')' :: behind) =
      some (source, last :: ')' :: behind) :=
    readsRun notEmpty (by simpa using noQuotes) (by simp [isLast])
  simp [quotedArgument?, literal?, quote?, isFirst, isLast, readSource]

/-- No character of a text has a mark. -/
def Free (marked : Char → Bool) (text : List Char) : Prop :=
  ∀ character ∈ text, marked character = false

instance (marked : Char → Bool) (text : List Char) : Decidable (Free marked text) :=
  List.decidableBAll (fun character => marked character = false) text

section

variable {marked : Char → Bool}

theorem freeAppend {first second : List Char} :
    Free marked (first ++ second) ↔ Free marked first ∧ Free marked second := by
  simp [Free, or_imp, forall_and]

theorem freeSuffix {part text : List Char} (suffix : part <:+ text) (free : Free marked text) :
    Free marked part :=
  fun character inside => free character (suffix.subset inside)

theorem freeOrMarked (marked : Char → Bool) (text : List Char) :
    Free marked text ∨ ∃ front mark behind, Free marked front ∧ marked mark ∧
      text = front ++ mark :: behind := by
  induction text with
  | nil => exact .inl (by simp [Free])
  | cons character text inductionHypothesis =>
    by_cases isMarked : marked character
    · exact .inr ⟨[], character, text, by simp [Free], isMarked, rfl⟩
    · have unmarked : marked character = false := by simpa using isMarked
      rcases inductionHypothesis with free | ⟨front, mark, behind, free, isMark, rfl⟩
      · exact .inl (List.forall_mem_cons.mpr ⟨unmarked, free⟩)
      · exact .inr ⟨character :: front, mark, behind,
          List.forall_mem_cons.mpr ⟨unmarked, free⟩, isMark, rfl⟩

/-- A text is cut at its first marked character in one way only. -/
theorem sameFirstMarked {first second firstBehind secondBehind : List Char}
    {firstMark secondMark : Char} (firstFree : Free marked first)
    (secondFree : Free marked second) (isFirst : marked firstMark) (isSecond : marked secondMark)
    (same : first ++ firstMark :: firstBehind = second ++ secondMark :: secondBehind) :
    first = second ∧ firstMark = secondMark ∧ firstBehind = secondBehind := by
  induction first generalizing second with
  | nil =>
    cases second with
    | nil => simpa using same
    | cons character second =>
      obtain ⟨rfl, -⟩ := List.cons_eq_cons.mp same
      rw [secondFree firstMark List.mem_cons_self] at isFirst
      cases isFirst
  | cons character first inductionHypothesis =>
    cases second with
    | nil =>
      obtain ⟨rfl, -⟩ := List.cons_eq_cons.mp same
      rw [firstFree character List.mem_cons_self] at isSecond
      cases isSecond
    | cons other second =>
      obtain ⟨rfl, behind⟩ := List.cons_eq_cons.mp same
      obtain ⟨rfl, sameMark⟩ := inductionHypothesis (List.forall_mem_cons.mp firstFree).2
        (List.forall_mem_cons.mp secondFree).2 behind
      exact ⟨rfl, sameMark⟩

end

end LintRepair.Text
