/-
This file finds the places where a name stands as a whole word in the position of a parameter. A
renaming puts an underscore before each of them and changes nothing else, so that none is left.
-/

import LintRepair.Proofs.Fix.Parameter
import LintRepair.Proofs.Text.Run
import LintRepair.Proofs.Unicode.CharacterClass

namespace LintRepair.Parameter

open Text Unicode

/-- A delimiter follows, perhaps after white space. -/
def isDelimited (text : List Char) : Bool :=
  (skipBlanks text).head?.any isDelimiter

/-- A run of word characters is a hit when it is the name and stands before a delimiter. -/
def isHit (name : List Char) (run : List Char × List Char) : Bool :=
  run.1 == name && isDelimited run.2

/-- Whether a hit begins at a place. -/
def hitAt (name : List Char) (before : Option Char) (text : List Char) : Bool :=
  (runAt? isWordCharacter before text).any (isHit name)

/-- Whether a text holds a hit. -/
def hasHit (name : List Char) (before : Option Char) (text : List Char) : Bool :=
  (runs isWordCharacter before text).any (isHit name)

/-- The text with an underscore before every hit. -/
def underscored (name : List Char) : Option Char → List Char → List Char
  | _, [] => []
  | before, character :: text =>
    let kept := character :: underscored name (some character) text
    if hitAt name before (character :: text) then '_' :: kept else kept

theorem delimiterNotWord {character : Char} (delimits : isDelimiter character) :
    isWordCharacter character = false := by
  simp only [isDelimiter, Bool.or_eq_true, beq_iff_eq] at delimits
  rcases delimits with (rfl | rfl) | rfl <;> decide

theorem delimiterNotBlank {character : Char} (delimits : isDelimiter character) :
    isBlank character = false := by
  simp only [isDelimiter, Bool.or_eq_true, beq_iff_eq] at delimits
  rcases delimits with (rfl | rfl) | rfl <;> decide

theorem delimited_iff {text : List Char} :
    isDelimited text = true ↔ ∃ blanks mark rest, (∀ character ∈ blanks, isBlank character) ∧
      isDelimiter mark = true ∧ text = blanks ++ mark :: rest := by
  constructor
  · intro delimited
    obtain ⟨blanks, areBlank, whole⟩ := takesSkippedBlanks text
    obtain ⟨mark, found, delimits⟩ := (Option.any_eq_true _ _).mp delimited
    obtain ⟨rest, ahead⟩ := List.head?_eq_some_iff.mp found
    rw [ahead] at whole
    exact ⟨blanks, mark, rest, areBlank, delimits, whole⟩
  · rintro ⟨blanks, mark, rest, areBlank, delimits, rfl⟩
    have skipped : skipBlanks (blanks ++ mark :: rest) = mark :: rest :=
      skipsBlanks areBlank (delimiterNotBlank delimits)
    simp [isDelimited, skipped, delimits]

/-- A word does not go on before a delimiter. -/
theorem delimitedStops {text : List Char} (delimited : isDelimited text = true) :
    text.head?.any isWordCharacter = false := by
  obtain ⟨blanks, mark, rest, areBlank, delimits, rfl⟩ := delimited_iff.mp delimited
  exact stopsBefore (fun character inside => blankNotWord (areBlank character inside))
    fun _ => delimiterNotWord delimits

section

variable {name : List Char} (filled : name ≠ [])
  (isWord : ∀ character ∈ name, isWordCharacter character)

include filled isWord

theorem hitAt_iff {before : Option Char} {text : List Char} :
    hitAt name before text = true ↔ before.any isWordCharacter = false ∧
      ∃ behind, isDelimited behind = true ∧ text = name ++ behind := by
  rw [hitAt, Option.any_eq_true]
  constructor
  · rintro ⟨⟨run, behind⟩, found, hits⟩
    obtain ⟨starts, -, -, -, rfl⟩ := runAt_eq_some_iff.mp found
    obtain ⟨rfl, delimited⟩ : run = name ∧ isDelimited behind = true := by simpa [isHit] using hits
    exact ⟨starts, behind, delimited, rfl⟩
  · rintro ⟨starts, behind, delimited, rfl⟩
    exact ⟨(name, behind),
      runAt_eq_some_iff.mpr ⟨starts, filled, isWord, delimitedStops delimited, rfl⟩,
      by simp [isHit, delimited]⟩

/-- Between a word and the text behind it the word ends exactly if the text does not go on with it. -/
theorem nameEnds_iff {before after : Option Char} :
    isWordBoundary (name.getLast?.or before) after = true ↔ after.any isWordCharacter = false := by
  have last : isWordCharacter (name.getLast filled) := isWord _ (List.getLast_mem filled)
  simp [isWordBoundary, List.getLast?_eq_some_getLast filled, last]

theorem nameStarts_iff {before : Option Char} {rest : List Char} :
    isWordBoundary before (name ++ rest).head? = true ↔ before.any isWordCharacter = false := by
  obtain ⟨first, others, rfl⟩ := List.exists_cons_of_ne_nil filled
  exact wordStarts_iff (isWord first List.mem_cons_self)

theorem occurrence_eq_some_iff {before : Option Char} {text value rest : List Char} :
    occurrence name before text = some (value, rest) ↔ before.any isWordCharacter = false ∧
      ∃ blanks mark, (∀ character ∈ blanks, isBlank character) ∧ isDelimiter mark = true ∧
        value = blanks ++ [mark] ∧ text = name ++ (value ++ rest) := by
  simp only [occurrence, Option.bind_eq_bind, Option.bind_eq_some_iff, Option.guard_eq_some',
    literal_eq_some_iff]
  constructor
  · rintro ⟨-, starts, behind, rfl, -, ends, read⟩
    rw [nameStarts_iff filled isWord] at starts
    split at read
    · cases read
    · next mark others skipped =>
      split at read
      · next delimits =>
        cases read
        have whole := List.takeWhile_append_dropWhile (p := isBlank) (l := behind)
        rw [skipped] at whole
        exact ⟨starts, behind.takeWhile isBlank, mark,
          fun _ inside => List.mem_takeWhile_imp inside, delimits, rfl, by simpa using whole.symm⟩
      · cases read
  · rintro ⟨starts, blanks, mark, areBlank, delimits, rfl, rfl⟩
    have delimited : isDelimited (blanks ++ [mark] ++ rest) = true :=
      delimited_iff.mpr ⟨blanks, mark, rest, areBlank, delimits, by simp⟩
    have notBlank : ¬ isBlank mark = true := by simp [delimiterNotBlank delimits]
    refine ⟨(), (nameStarts_iff filled isWord).mpr starts, _, rfl, (),
      (nameEnds_iff filled isWord).mpr (delimitedStops delimited), ?_⟩
    rw [List.append_assoc, List.dropWhile_append_of_pos areBlank,
      List.takeWhile_append_of_pos areBlank]
    simp [delimiterNotBlank delimits, delimits]

theorem occurrenceHits {before : Option Char} {text : List Char} :
    (occurrence name before text).isSome = hitAt name before text := by
  rw [Bool.eq_iff_iff, hitAt_iff filled isWord, Option.isSome_iff_exists]
  constructor
  · rintro ⟨⟨value, rest⟩, matched⟩
    obtain ⟨starts, blanks, mark, areBlank, delimits, rfl, rfl⟩ :=
      (occurrence_eq_some_iff filled isWord).mp matched
    exact ⟨starts, _, delimited_iff.mpr ⟨blanks, mark, rest, areBlank, delimits, by simp⟩, rfl⟩
  · rintro ⟨starts, behind, delimited, rfl⟩
    obtain ⟨blanks, mark, rest, areBlank, delimits, rfl⟩ := delimited_iff.mp delimited
    exact ⟨(blanks ++ [mark], rest), (occurrence_eq_some_iff filled isWord).mpr
      ⟨starts, blanks, mark, areBlank, delimits, rfl, by simp⟩⟩

end

section

variable {name : List Char}

theorem occurrenceConsumes (filled : name ≠ []) : Consumes (occurrence name) :=
  (takesOccurrence name).consumes fun part value ⟨form, _⟩ => by simp [form, filled]

theorem hitAtBehind {before : Option Char} (goesOn : before.any isWordCharacter)
    (text : List Char) : hitAt name before text = false := by
  simp [hitAt, runAtBehind goesOn]

theorem hitAtOutside {character : Char} (outside : isWordCharacter character = false)
    (before : Option Char) (text : List Char) : hitAt name before (character :: text) = false := by
  simp [hitAt, runAtOutside outside]

theorem hasHitCons (before : Option Char) (character : Char) (text : List Char) :
    hasHit name before (character :: text) =
      (hitAt name before (character :: text) || hasHit name (some character) text) := by
  rw [hasHit, runs, List.any_append, hitAt, hasHit]
  cases runAt? isWordCharacter before (character :: text) <;> simp

theorem underscoredKept {before : Option Char} {character : Char} {text : List Char}
    (noHit : hitAt name before (character :: text) = false) :
    underscored name before (character :: text) =
      character :: underscored name (some character) text := by
  simp [underscored, noHit]

theorem underscoredTaken {before : Option Char} {character : Char} {text : List Char}
    (hit : hitAt name before (character :: text) = true) :
    underscored name before (character :: text) =
      '_' :: character :: underscored name (some character) text := by
  simp [underscored, hit]

theorem underscoredNoHit {before : Option Char} {text : List Char}
    (noHit : hasHit name before text = false) : underscored name before text = text := by
  induction text generalizing before with
  | nil => rfl
  | cons character text inductionHypothesis =>
    rw [hasHitCons, Bool.or_eq_false_iff] at noHit
    rw [underscoredKept noHit.1, inductionHypothesis noHit.2]

/-- No hit begins inside a word. -/
theorem underscoredWithin {before : Option Char} {part : List Char}
    (goesOn : before.any isWordCharacter) (inside : ∀ character ∈ part, isWordCharacter character)
    (rest : List Char) : underscored name before (part ++ rest) =
      part ++ underscored name (part.getLast?.or before) rest := by
  induction part generalizing before with
  | nil => rfl
  | cons character part inductionHypothesis =>
    obtain ⟨first, others⟩ := List.forall_mem_cons.mp inside
    have goesOnBehind : (some character).any isWordCharacter := first
    rw [List.cons_append, underscoredKept (hitAtBehind goesOn _), lastOfCons,
      inductionHypothesis goesOnBehind others, List.cons_append]

/-- No hit begins between words. -/
theorem underscoredBetween {before : Option Char} {part : List Char}
    (outside : ∀ character ∈ part, isWordCharacter character = false) (rest : List Char) :
    underscored name before (part ++ rest) =
      part ++ underscored name (part.getLast?.or before) rest := by
  induction part generalizing before with
  | nil => rfl
  | cons character part inductionHypothesis =>
    obtain ⟨first, others⟩ := List.forall_mem_cons.mp outside
    rw [List.cons_append, underscoredKept (hitAtOutside first _ _), lastOfCons,
      inductionHypothesis others, List.cons_append]

end

section

variable {name : List Char} (filled : name ≠ [])
  (isWord : ∀ character ∈ name, isWordCharacter character)

include filled isWord

theorem underscoredHit {before : Option Char} {behind : List Char}
    (starts : before.any isWordCharacter = false) (delimited : isDelimited behind = true) :
    underscored name before (name ++ behind) =
      '_' :: (name ++ underscored name (name.getLast?.or before) behind) := by
  have hit : hitAt name before (name ++ behind) = true :=
    (hitAt_iff filled isWord).mpr ⟨starts, behind, delimited, rfl⟩
  obtain ⟨first, others, rfl⟩ := List.exists_cons_of_ne_nil filled
  obtain ⟨firstIsWord, othersAreWord⟩ := List.forall_mem_cons.mp isWord
  have goesOn : (some first).any isWordCharacter := firstIsWord
  rw [lastOfCons, List.cons_append, List.cons_append, ← underscoredWithin goesOn othersAreWord]
  exact underscoredTaken hit

/-- A replacement of every match puts an underscore before every hit. -/
theorem underscoresScanned {front text : List Char} {cutPieces : List (Piece (List Char))}
    (scanned : Scanned (occurrence name) front text cutPieces) :
    cutPieces.flatMap (Piece.rendered fun behind => '_' :: name ++ behind) =
      underscored name front.getLast? text := by
  induction scanned with
  | done front => rfl
  | @kept front text character rest nothing scanned inductionHypothesis =>
    have noHit : hitAt name front.getLast? (character :: text) = false := by
      rw [← occurrenceHits filled isWord, nothing]
      rfl
    rw [List.flatMap_cons, inductionHypothesis, underscoredKept noHit, List.getLast?_append]
    rfl
  | @found front part behind value rest notEmpty matched scanned inductionHypothesis =>
    obtain ⟨starts, blanks, mark, areBlank, delimits, rfl, whole⟩ :=
      (occurrence_eq_some_iff filled isWord).mp matched
    obtain rfl : part = name ++ (blanks ++ [mark]) := by
      rw [← List.append_assoc] at whole
      exact List.append_cancel_right whole
    have delimited : isDelimited (blanks ++ [mark] ++ behind) = true :=
      delimited_iff.mpr ⟨blanks, mark, behind, areBlank, delimits, by simp⟩
    -- The match takes the delimiter along, but no hit begins in what it takes behind the name.
    have outside : ∀ character ∈ blanks ++ [mark], isWordCharacter character = false := by
      simp only [List.forall_mem_append, List.forall_mem_singleton]
      exact ⟨fun character inside => blankNotWord (areBlank character inside),
        delimiterNotWord delimits⟩
    rw [List.flatMap_cons, inductionHypothesis, List.append_assoc name,
      underscoredHit filled isWord starts delimited, underscoredBetween outside]
    simp [Piece.rendered]

/-- The scan finds a match exactly if the text holds a hit. -/
theorem foundScanned_iff {front text : List Char} {cutPieces : List (Piece (List Char))}
    (scanned : Scanned (occurrence name) front text cutPieces) :
    cutPieces.filterMap Piece.value? = [] ↔ hasHit name front.getLast? text = false := by
  induction scanned with
  | done front => simp [hasHit, runs]
  | @kept front text character rest nothing scanned inductionHypothesis =>
    have noHit : hitAt name front.getLast? (character :: text) = false := by
      rw [← occurrenceHits filled isWord, nothing]
      rfl
    rw [List.getLast?_append] at inductionHypothesis
    rw [hasHitCons, noHit, Bool.false_or]
    exact inductionHypothesis
  | @found front part behind value rest notEmpty matched scanned inductionHypothesis =>
    have hit : hitAt name front.getLast? (part ++ behind) = true := by
      rw [← occurrenceHits filled isWord, matched]
      rfl
    obtain ⟨first, others, rfl⟩ := List.exists_cons_of_ne_nil notEmpty
    rw [List.cons_append, hasHitCons, ← List.cons_append, hit]
    simp [Piece.value?]

theorem rename_eq (line : List Char) :
    rename? line name =
      if hasHit name none line then some (underscored name none line) else none := by
  have scanned := scannedPieces (occurrenceConsumes filled) line
  have found : occurrences (occurrence name) line = [] ↔ hasHit name none line = false :=
    foundScanned_iff filled isWord scanned
  rw [rename?, replaceAll, underscoresScanned filled isWord scanned]
  cases hits : hasHit name none line with
  | true =>
    have filledOccurrences : occurrences (occurrence name) line ≠ [] := by
      intro empty
      rw [found.mp empty] at hits
      cases hits
    simp [filledOccurrences]
  | false =>
    have noOccurrence : occurrences (occurrence name) line = [] := found.mpr hits
    simp [noOccurrence]

end

section

variable {name : List Char}

theorem delimitedCons (character : Char) (text : List Char) :
    isDelimited (character :: text) =
      if isBlank character then isDelimited text else isDelimiter character := by
  rw [isDelimited, skipBlanks, List.dropWhile_cons]
  split
  · rfl
  · rfl

/-- An underscore is neither white space nor a delimiter, and neither is the name behind it. -/
theorem delimitedUnderscored (before : Option Char) (text : List Char) :
    isDelimited (underscored name before text) = isDelimited text := by
  induction text generalizing before with
  | nil => rfl
  | cons character text inductionHypothesis =>
    cases hit : hitAt name before (character :: text) with
    | false =>
      rw [underscoredKept hit, delimitedCons, delimitedCons, inductionHypothesis]
    | true =>
      have isWord : isWordCharacter character = true := by
        by_contra outside
        rw [hitAtOutside (by simpa using outside)] at hit
        cases hit
      have notDelimiter : isDelimiter character = false := by
        by_contra delimits
        rw [delimiterNotWord (by simpa using delimits)] at isWord
        cases isWord
      rw [underscoredTaken hit, delimitedCons '_', delimitedCons character text,
        wordNotBlank isWord, notDelimiter]
      rfl

/-- The rest of a word is as it was. -/
theorem wordUnderscored {before : Option Char} (goesOn : before.any isWordCharacter)
    (text : List Char) :
    (underscored name before text).takeWhile isWordCharacter = text.takeWhile isWordCharacter := by
  induction text generalizing before with
  | nil => rfl
  | cons character text inductionHypothesis =>
    rw [underscoredKept (hitAtBehind goesOn _), List.takeWhile_cons, List.takeWhile_cons]
    split
    · next isWord => rw [inductionHypothesis (show (some character).any isWordCharacter from isWord)]
    · rfl

theorem behindUnderscored {before : Option Char} (goesOn : before.any isWordCharacter)
    (text : List Char) :
    isDelimited ((underscored name before text).dropWhile isWordCharacter) =
      isDelimited (text.dropWhile isWordCharacter) := by
  induction text generalizing before with
  | nil => rfl
  | cons character text inductionHypothesis =>
    have kept : underscored name before (character :: text) =
        character :: underscored name (some character) text :=
      underscoredKept (hitAtBehind goesOn _)
    rw [kept, List.dropWhile_cons, List.dropWhile_cons]
    split
    · next isWord => rw [inductionHypothesis (show (some character).any isWordCharacter from isWord)]
    · rw [← kept, delimitedUnderscored]

/-- Underscores further on make or break no hit at a character. -/
theorem hitUnderscored (other : List Char) (before : Option Char) (character : Char)
    (text : List Char) :
    hitAt other before (character :: underscored name (some character) text) =
      hitAt other before (character :: text) := by
  cases starts : before.any isWordCharacter with
  | true => rw [hitAtBehind starts, hitAtBehind starts]
  | false =>
    cases isWord : isWordCharacter character with
    | false => rw [hitAtOutside isWord, hitAtOutside isWord]
    | true =>
      simp [hitAt, runAt?, run?, starts, isWord, isHit, wordUnderscored, behindUnderscored]

end

section

variable {name : List Char} (filled : name ≠ [])
  (isWord : ∀ character ∈ name, isWordCharacter character)

include filled isWord

/-- With an underscore before it a name is a hit of the longer name only. -/
theorem hitBehindUnderscore {other : List Char} (otherFilled : other ≠ [])
    (otherIsWord : ∀ character ∈ other, isWordCharacter character) (different : other ≠ '_' :: name)
    {before : Option Char} {text : List Char} (hit : hitAt name before text = true) :
    hitAt other before ('_' :: text) = false := by
  apply Bool.eq_false_iff.mpr
  intro otherHit
  obtain ⟨-, behind, delimited, rfl⟩ := (hitAt_iff filled isWord).mp hit
  obtain ⟨-, others, otherDelimited, whole⟩ := (hitAt_iff otherFilled otherIsWord).mp otherHit
  have underscoredIsWord : ∀ character ∈ '_' :: name, isWordCharacter character :=
    List.forall_mem_cons.mpr ⟨by decide, isWord⟩
  -- The word at the underscore is read in two ways, with the name behind it and as the other name.
  have once := readsRun (List.cons_ne_nil '_' name) underscoredIsWord (delimitedStops delimited)
  have again := readsRun otherFilled otherIsWord (delimitedStops otherDelimited)
  rw [← whole, ← List.cons_append, once, Option.some.injEq, Prod.mk.injEq] at again
  exact different again.1.symm

theorem hitPrefixed {before : Option Char} {text : List Char}
    (hit : hitAt name before text = true) : hitAt name before ('_' :: text) = false :=
  hitBehindUnderscore filled isWord filled isWord (List.cons_ne_self '_' name).symm hit

theorem noHitUnderscored (before : Option Char) (text : List Char) :
    hasHit name before (underscored name before text) = false := by
  induction text generalizing before with
  | nil => rfl
  | cons character text inductionHypothesis =>
    cases hit : hitAt name before (character :: text) with
    | false =>
      rw [underscoredKept hit, hasHitCons, hitUnderscored, hit, inductionHypothesis]
      rfl
    | true =>
      have hitKept : hitAt name before (character :: underscored name (some character) text) =
          true := (hitUnderscored name before character text).trans hit
      rw [underscoredTaken hit, hasHitCons, hasHitCons, hitPrefixed filled isWord hitKept,
        hitAtBehind (by decide), inductionHypothesis]
      rfl

end

/-- A renaming puts an underscore before every maximal run of word characters that is the name and
stands before a delimiter, and changes nothing else. There is no result if there is no such run, as
there is none in a line that has been renamed. -/
theorem hitsUnderscored (line : List Char) {name : List Char} (filled : name ≠ [])
    (isWord : ∀ character ∈ name, isWordCharacter character) :
    rename? line name =
        (if (runs isWordCharacter none line).any (isHit name) then
          some (underscored name none line) else none) ∧
      ∀ renamed, rename? line name = some renamed → rename? renamed name = none := by
  have renames := rename_eq filled isWord line
  refine ⟨renames, fun renamed result => ?_⟩
  rw [renames] at result
  split at result
  · cases result
    rw [rename_eq filled isWord, noHitUnderscored filled isWord]
    rfl
  · cases result

/-- Adjacent parameters of one name, and a longer name between them. -/
theorem adjacentUnderscored :
    "a".toList ≠ [] ∧ (∀ character ∈ "a".toList, isWordCharacter character) ∧
      rename? "f(a,a: T, aa, a\u00a0)".toList "a".toList =
        some "f(_a,_a: T, aa, _a\u00a0)".toList ∧
      rename? "f(_a,_a: T, aa, _a\u00a0)".toList "a".toList = none := by
  have filled : "a".toList ≠ [] := by decide
  have isWord : ∀ character ∈ "a".toList, isWordCharacter character := by decide
  have renamed := hitsUnderscored "f(a,a: T, aa, a\u00a0)".toList filled isWord
  have first := renamed.1.trans (if_pos (by decide +kernel))
  refine ⟨filled, isWord, first.trans (congrArg some (by decide +kernel)), ?_⟩
  exact renamed.2 _ (first.trans (congrArg some (by decide +kernel)))

end LintRepair.Parameter
