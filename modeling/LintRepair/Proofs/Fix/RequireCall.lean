/-
This file says at which texts the two forms of `require` match. Both end in a call, which is a head
without quotation marks and a quoted module behind it.
-/

import LintRepair.Proofs.Fix.RequireImport

namespace LintRepair.RequireImport

open Text Unicode

/-- A text begins with a module, the quotation mark behind it and a closing parenthesis. -/
def Closing (text : List Char) : Prop :=
  ∃ source last behind, source ≠ [] ∧ Free isQuote source ∧ isQuote last ∧
    text = source ++ last :: ')' :: behind

/-- A text begins with a head, a quoted module and a closing parenthesis. -/
def Quoting (Head : List Char → Prop) (text : List Char) : Prop :=
  ∃ head first behind, Head head ∧ isQuote first ∧ Closing behind ∧ text = head ++ first :: behind

/-- What stands before the quoted module of a call. -/
def CallHead (head : List Char) : Prop :=
  ∃ before behind, (∀ character ∈ before, isBlank character) ∧
    (∀ character ∈ behind, isBlank character) ∧ head = before ++ '=' :: (behind ++ "require(".toList)

/-- What stands before the quoted module of a constant with one name. -/
def SingleHead (head : List Char) : Prop :=
  ∃ blanks binding call, blanks ≠ [] ∧ (∀ character ∈ blanks, isBlank character) ∧
    binding ≠ [] ∧ (∀ character ∈ binding, isWordCharacter character) ∧ CallHead call ∧
    head = "const".toList ++ (blanks ++ (binding ++ call))

/-- A text begins with a constant with names in braces, and a call follows it. -/
def Bracing (text : List Char) : Prop :=
  ∃ blanks names behind, blanks ≠ [] ∧ (∀ character ∈ blanks, isBlank character) ∧ names ≠ [] ∧
    Free (· == '\x7d') names ∧ Quoting CallHead behind ∧
    text = "const".toList ++ (blanks ++ '\x7b' :: (names ++ '\x7d' :: behind))

theorem Quoting.behind {Head Longer : List Char → Prop} {front text : List Char}
    (longer : ∀ head, Head head → Longer (front ++ head)) (quoting : Quoting Head text) :
    Quoting Longer (front ++ text) := by
  obtain ⟨head, first, behind, isHead, isFirst, closing, rfl⟩ := quoting
  exact ⟨front ++ head, first, behind, longer head isHead, isFirst, closing,
    (List.append_assoc _ _ _).symm⟩

/-- A call does not go on with the word before it. -/
theorem Quoting.endsWord {text : List Char} (quoting : Quoting CallHead text) :
    text.head?.any isWordCharacter = false := by
  obtain ⟨_, first, behind, ⟨before, between, beforeBlank, -, rfl⟩, -, -, rfl⟩ := quoting
  rw [List.append_assoc]
  exact stopsBefore (fun character inside => blankNotWord (beforeBlank character inside))
    fun _ => rfl

/-- A call is its head and the quoted module. -/
theorem callParts {part source : List Char} (form : CallForm part source) :
    ∃ head first last, CallHead head ∧ isQuote first ∧ isQuote last ∧ source ≠ [] ∧
      Free isQuote source ∧ part = head ++ first :: (source ++ [last, ')']) := by
  obtain ⟨before, between, argument, beforeBlank, betweenBlank, ⟨first, last, isFirst, isLast,
    notEmpty, noQuotes, rfl⟩, rfl⟩ := form
  exact ⟨before ++ '=' :: (between ++ "require(".toList), first, last,
    ⟨before, between, beforeBlank, betweenBlank, rfl⟩, isFirst, isLast, notEmpty, noQuotes, by simp⟩

theorem quotingOfCallForm {part source : List Char} (form : CallForm part source)
    (behind : List Char) : Quoting CallHead (part ++ behind) := by
  obtain ⟨head, first, last, isHead, isFirst, isLast, notEmpty, noQuotes, rfl⟩ := callParts form
  exact ⟨head, first, source ++ last :: ')' :: behind, isHead, isFirst,
    ⟨source, last, behind, notEmpty, noQuotes, isLast, rfl⟩, by simp⟩

theorem callReads {text : List Char} : (call? text).isSome ↔ Quoting CallHead text := by
  constructor
  · intro read
    obtain ⟨⟨source, behind⟩, read⟩ := Option.isSome_iff_exists.mp read
    obtain ⟨part, form, rfl⟩ := takesCall read
    exact quotingOfCallForm form behind
  · rintro ⟨_, first, _, ⟨before, between, beforeBlank, betweenBlank, rfl⟩, isFirst,
      ⟨source, last, behind, notEmpty, noQuotes, isLast, rfl⟩, rfl⟩
    have equals : skipBlanks (before ++ '=' :: (between ++ "require(".toList) ++
        first :: (source ++ last :: ')' :: behind)) =
          '=' :: (between ++ ("require".toList ++
            '(' :: first :: (source ++ last :: ')' :: behind))) := by
      rw [List.append_assoc]
      rw [skipsBlanks beforeBlank rfl]
      simp
    have require : skipBlanks (between ++ ("require".toList ++
        '(' :: first :: (source ++ last :: ')' :: behind))) =
          "require".toList ++ '(' :: first :: (source ++ last :: ')' :: behind) :=
      skipsBlanks betweenBlank rfl
    rw [call?, equals]
    simp only [literal?, ↓reduceIte, Option.bind_eq_bind, Option.bind_some, require,
      literalAppend, readsQuotedArgument isFirst isLast notEmpty noQuotes, Option.isSome_some]

theorem singleReads {before : Option Char} {text : List Char} :
    (single before text).isSome ↔ Quoting SingleHead text := by
  constructor
  · intro read
    obtain ⟨⟨require, behind⟩, read⟩ := Option.isSome_iff_exists.mp read
    obtain ⟨part, ⟨blanks, call, notEmpty, areBlank, named, wordCharacters, form, rfl⟩, rfl⟩ :=
      takesSingle before text require behind read
    have longer : ∀ head, CallHead head →
        SingleHead ("const".toList ++ blanks ++ require.binding ++ head) := by
      intro head isHead
      exact ⟨blanks, require.binding, head, notEmpty, areBlank, named, wordCharacters, isHead,
        by simp⟩
    rw [List.append_assoc]
    exact (quotingOfCallForm form behind).behind longer
  · rintro ⟨_, first, behind, ⟨blanks, binding, call, notEmpty, areBlank, named, wordCharacters,
      isCall, rfl⟩, isFirst, closing, rfl⟩
    have quoting : Quoting CallHead (call ++ first :: behind) :=
      ⟨call, first, behind, isCall, isFirst, closing, rfl⟩
    obtain ⟨result, readCall⟩ := Option.isSome_iff_exists.mp (callReads.mpr quoting)
    obtain ⟨readBlanks, readBinding⟩ :=
      readsName notEmpty areBlank named wordCharacters quoting.endsWord
    simp only [single, List.append_assoc, literalAppend, Option.bind_eq_bind, Option.bind_some,
      readBlanks, readBinding, readCall, Option.pure_def, Option.isSome_some]

/-- Braces with something between them hold names. -/
theorem namesRead {inside : List Char} (notEmpty : inside ≠ []) : (names? inside).isSome := by
  unfold names?
  split
  · simpa using notEmpty
  · rfl

theorem inlineBlanksNoBrace {blanks : List Char}
    (areBlank : ∀ character ∈ blanks, isInlineBlank character) : Free (· == '\x7d') blanks := by
  intro character inside
  apply beq_false_of_ne
  rintro rfl
  exact absurd (areBlank '\x7d' inside) (by decide)

theorem destructuredReads {before : Option Char} {text : List Char} :
    (destructured before text).isSome ↔ Bracing text := by
  constructor
  · intro read
    obtain ⟨⟨require, behind⟩, read⟩ := Option.isSome_iff_exists.mp read
    obtain ⟨part, ⟨blanks, front, back, call, notEmpty, areBlank, frontBlank, backBlank, named,
      noBrace, form, rfl⟩, rfl⟩ := takesDestructured before text require behind read
    have braceFree : Free (· == '\x7d') (front ++ require.binding ++ back) :=
      freeAppend.mpr ⟨freeAppend.mpr ⟨inlineBlanksNoBrace frontBlank,
        fun _ inside => beq_false_of_ne (noBrace _ inside)⟩, inlineBlanksNoBrace backBlank⟩
    exact ⟨blanks, front ++ require.binding ++ back, call ++ behind, notEmpty, areBlank,
      by simp [named], braceFree, quotingOfCallForm form behind, by simp⟩
  · rintro ⟨blanks, names, behind, notEmpty, areBlank, filled, noBrace, quoting, rfl⟩
    obtain ⟨binding, readNames⟩ := Option.isSome_iff_exists.mp (namesRead filled)
    obtain ⟨result, readCall⟩ := Option.isSome_iff_exists.mp (callReads.mpr quoting)
    have readBlanks : blanks? (blanks ++ '\x7b' :: (names ++ '\x7d' :: behind)) =
        some ('\x7b' :: (names ++ '\x7d' :: behind)) :=
      readsBlanks notEmpty areBlank rfl
    have inBraces : (names ++ '\x7d' :: behind).takeWhile (· != '\x7d') = names := by
      rw [List.takeWhile_append_of_pos (by simpa [Free] using noBrace)]
      simp
    have closed : literal? ['\x7d'] ((names ++ '\x7d' :: behind).dropWhile (· != '\x7d')) =
        some behind := by
      rw [List.dropWhile_append_of_pos (by simpa [Free] using noBrace)]
      simp [literal?]
    simp only [destructured, literalAppend, Option.bind_eq_bind, Option.bind_some, readBlanks,
      readsMark, inBraces, readNames, closed, readCall, Option.pure_def, Option.isSome_some]

end LintRepair.RequireImport
