/-
This file states the grammar of removable lines: a head, any text on the same line, and a semicolon
at the end, with white space around the whole.
-/

import LintRepair.Fix.Declaration
import LintRepair.Proofs.Text.Reader

namespace LintRepair.Declaration

open Text Unicode

/-- A keyword, one name and an equals sign. -/
def VariableHead (keyword head : List Char) : Prop :=
  ∃ gap name blanks, gap ≠ [] ∧ (∀ character ∈ gap, isBlank character) ∧
    name ≠ [] ∧ (∀ character ∈ name, isWordCharacter character) ∧
    (∀ character ∈ blanks, isBlank character) ∧
    head = keyword ++ (gap ++ (name ++ (blanks ++ ['='])))

/-- Any text in braces, which ends at the first closing brace, and the word `from`. -/
def NamedImportHead (head : List Char) : Prop :=
  ∃ before names after, (∀ character ∈ before, isBlank character) ∧ '}' ∉ names ∧
    (∀ character ∈ after, isBlank character) ∧
    head = "import".toList ++ (before ++ '{' :: (names ++ '}' :: (after ++ "from".toList)))

/-- One name and the word `from`. -/
def DefaultImportHead (head : List Char) : Prop :=
  ∃ gap name between, gap ≠ [] ∧ (∀ character ∈ gap, isBlank character) ∧
    name ≠ [] ∧ (∀ character ∈ name, isWordCharacter character) ∧
    between ≠ [] ∧ (∀ character ∈ between, isBlank character) ∧
    head = "import".toList ++ (gap ++ (name ++ (between ++ "from".toList)))

/-- The ways in which a removable declaration begins. -/
inductive Head : List Char → Prop
  | assignment {keyword head : List Char}
      (isKeyword : keyword ∈ ["const".toList, "let".toList, "var".toList])
      (form : VariableHead keyword head) : Head head
  | namedImport {head : List Char} (form : NamedImportHead head) : Head head
  | defaultImport {head : List Char} (form : DefaultImportHead head) : Head head

/-- A head, any text without a line feed, and a semicolon. -/
def Declares (statement : List Char) : Prop :=
  ∃ head body, Head head ∧ '\n' ∉ body ∧ statement = head ++ (body ++ [';'])

section

variable {text behind : List Char}

theorem variableReads {keyword : List Char} :
    variableHead? keyword text = some behind ↔
      ∃ head, VariableHead keyword head ∧ text = head ++ behind := by
  constructor
  · intro read
    simp only [variableHead?, Option.bind_eq_bind, Option.bind_eq_some_iff,
      literal_eq_some_iff] at read
    obtain ⟨_, rfl, _, readGap, ⟨name, named⟩, readName, readEquals⟩ := read
    obtain ⟨gap, gapNotEmpty, gapBlank, rfl⟩ := takesBlanks readGap
    obtain ⟨nameNotEmpty, isWord, rfl⟩ := takesRun readName
    obtain ⟨blanks, areBlank, whole⟩ := takesSkippedBlanks named
    refine ⟨_, ⟨gap, name, blanks, gapNotEmpty, gapBlank, nameNotEmpty, isWord, areBlank, rfl⟩, ?_⟩
    rw [whole, readEquals]
    simp
  · rintro ⟨_, ⟨gap, name, blanks, gapNotEmpty, gapBlank, nameNotEmpty, isWord, areBlank, rfl⟩,
      rfl⟩
    have stops : (blanks ++ '=' :: behind).head?.any isWordCharacter = false :=
      stopsBefore (fun character inside => blankNotWord (areBlank character inside))
        fun _ => rfl
    obtain ⟨readGap, readName⟩ := readsName gapNotEmpty gapBlank nameNotEmpty isWord stops
    have readEquals : skipBlanks (blanks ++ '=' :: behind) = '=' :: behind :=
      skipsBlanks areBlank rfl
    simp only [variableHead?, List.append_assoc, List.singleton_append, literalAppend,
      Option.bind_eq_bind, Option.bind_some, readGap, readName, readEquals, readsMark]

theorem namedImportReads :
    namedImportHead? text = some behind ↔
      ∃ head, NamedImportHead head ∧ text = head ++ behind := by
  constructor
  · intro read
    simp only [namedImportHead?, Option.bind_eq_bind, Option.bind_eq_some_iff,
      literal_eq_some_iff] at read
    obtain ⟨keyword, rfl, inside, opened, closed, readNames, ended⟩ := read
    obtain ⟨before, beforeBlank, wholeBefore⟩ := takesSkippedBlanks keyword
    obtain ⟨after, afterBlank, wholeAfter⟩ := takesSkippedBlanks closed
    obtain ⟨names, noBrace, wholeNames⟩ :
        ∃ names, '}' ∉ names ∧ inside = names ++ '}' :: closed := by
      refine ⟨inside.takeWhile (· != '}'), fun isInside => ?_, ?_⟩
      · simpa using List.mem_takeWhile_imp isInside
      · rw [← List.singleton_append, ← readNames, List.takeWhile_append_dropWhile]
    refine ⟨_, ⟨before, names, after, beforeBlank, noBrace, afterBlank, rfl⟩, ?_⟩
    rw [wholeBefore, opened, wholeNames, wholeAfter, ended]
    simp
  · rintro ⟨_, ⟨before, names, after, beforeBlank, noBrace, afterBlank, rfl⟩, rfl⟩
    have opens : ∀ rest, skipBlanks (before ++ '{' :: rest) = '{' :: rest := fun rest =>
      skipsBlanks beforeBlank rfl
    have closes : ∀ rest, (names ++ '}' :: rest).dropWhile (· != '}') = '}' :: rest := by
      intro rest
      have noStop : ∀ character ∈ names, (character != '}') = true := fun character inside =>
        bne_iff_ne.mpr fun isBrace => noBrace (isBrace ▸ inside)
      rw [List.dropWhile_append_of_pos noStop]
      simp
    have ends : skipBlanks (after ++ ("from".toList ++ behind)) = "from".toList ++ behind :=
      skipsBlanks afterBlank rfl
    simp only [namedImportHead?, List.append_assoc, List.cons_append, literalAppend,
      Option.bind_eq_bind, Option.bind_some, opens, readsMark, closes, ends]

theorem defaultImportReads :
    defaultImportHead? text = some behind ↔
      ∃ head, DefaultImportHead head ∧ text = head ++ behind := by
  constructor
  · intro read
    simp only [defaultImportHead?, Option.bind_eq_bind, Option.bind_eq_some_iff,
      literal_eq_some_iff] at read
    obtain ⟨_, rfl, _, readGap, ⟨name, named⟩, readName, _, readBetween, rfl⟩ := read
    obtain ⟨gap, gapNotEmpty, gapBlank, rfl⟩ := takesBlanks readGap
    obtain ⟨nameNotEmpty, isWord, rfl⟩ := takesRun readName
    obtain ⟨between, betweenNotEmpty, betweenBlank, rfl⟩ := takesBlanks readBetween
    exact ⟨_, ⟨gap, name, between, gapNotEmpty, gapBlank, nameNotEmpty, isWord, betweenNotEmpty,
      betweenBlank, rfl⟩, by simp⟩
  · rintro ⟨_, ⟨gap, name, between, gapNotEmpty, gapBlank, nameNotEmpty, isWord, betweenNotEmpty,
      betweenBlank, rfl⟩, rfl⟩
    have stops : (between ++ ("from".toList ++ behind)).head?.any isWordCharacter = false :=
      stopsBefore (fun character inside => blankNotWord (betweenBlank character inside))
        fun empty => absurd empty betweenNotEmpty
    obtain ⟨readGap, readName⟩ := readsName gapNotEmpty gapBlank nameNotEmpty isWord stops
    have readBetween : blanks? (between ++ ("from".toList ++ behind)) =
        some ("from".toList ++ behind) := readsBlanks betweenNotEmpty betweenBlank rfl
    simp only [defaultImportHead?, List.append_assoc, literalAppend, Option.bind_eq_bind,
      Option.bind_some, readGap, readName, readBetween]

/-- Some way of reading a head succeeds exactly on the texts that a head begins. -/
theorem headReads :
    (∃ head? ∈ heads, head? text = some behind) ↔ ∃ head, Head head ∧ text = head ++ behind := by
  simp only [heads, List.mem_cons, List.not_mem_nil, or_false, exists_eq_or_imp, exists_eq_left,
    variableReads, namedImportReads, defaultImportReads]
  constructor
  · rintro (⟨head, form, whole⟩ | ⟨head, form, whole⟩ | ⟨head, form, whole⟩ |
      ⟨head, form, whole⟩ | ⟨head, form, whole⟩)
    · exact ⟨head, .assignment (by simp) form, whole⟩
    · exact ⟨head, .assignment (by simp) form, whole⟩
    · exact ⟨head, .assignment (by simp) form, whole⟩
    · exact ⟨head, .namedImport form, whole⟩
    · exact ⟨head, .defaultImport form, whole⟩
  · rintro ⟨head, isHead, whole⟩
    cases isHead with
    | assignment isKeyword form =>
      simp only [List.mem_cons, List.not_mem_nil, or_false] at isKeyword
      rcases isKeyword with rfl | rfl | rfl
      · exact .inl ⟨head, form, whole⟩
      · exact .inr (.inl ⟨head, form, whole⟩)
      · exact .inr (.inr (.inl ⟨head, form, whole⟩))
    | namedImport form => exact .inr (.inr (.inr (.inl ⟨head, form, whole⟩)))
    | defaultImport form => exact .inr (.inr (.inr (.inr ⟨head, form, whole⟩)))

/-- A statement ends with its last semicolon, behind which only white space stands. -/
theorem endsStatement_iff :
    endsStatement text = true ↔ ∃ body trailing, '\n' ∉ body ∧
      (∀ character ∈ trailing, isBlank character) ∧ text = body ++ ';' :: trailing := by
  -- The text is read from its end, so the trailing white space comes first.
  unfold endsStatement
  constructor
  · intro ends
    obtain ⟨trailing, areBlank, whole⟩ := takesSkippedBlanks text.reverse
    split at ends
    · next body reversed =>
      refine ⟨body.reverse, trailing.reverse, by simpa using ends, by simpa using areBlank, ?_⟩
      rw [skipBlanks, reversed] at whole
      simpa using congrArg List.reverse whole
    · cases ends
  · rintro ⟨body, trailing, noLineFeed, areBlank, rfl⟩
    have reversed : (body ++ ';' :: trailing).reverse.dropWhile isBlank = ';' :: body.reverse := by
      have readBlanks : skipBlanks (trailing.reverse ++ ';' :: body.reverse) =
          ';' :: body.reverse := skipsBlanks (by simpa using areBlank) rfl
      simpa [skipBlanks] using readBlanks
    rw [reversed]
    simpa using noLineFeed

theorem Head.notBlank {head : List Char} (isHead : Head head) (rest : List Char) :
    (head ++ rest).head?.any isBlank = false := by
  cases isHead with
  | assignment isKeyword form =>
    obtain ⟨gap, name, blanks, -, -, -, -, -, rfl⟩ := form
    simp only [List.mem_cons, List.not_mem_nil, or_false] at isKeyword
    rcases isKeyword with rfl | rfl | rfl <;> rfl
  | namedImport form =>
    obtain ⟨before, names, after, -, -, -, rfl⟩ := form
    rfl
  | defaultImport form =>
    obtain ⟨gap, name, between, -, -, -, -, -, -, rfl⟩ := form
    rfl

theorem isRemovable_iff {line : List Char} :
    isRemovable line = true ↔ ∃ head behind, Head head ∧ skipBlanks line = head ++ behind ∧
      endsStatement behind = true := by
  rw [isRemovable, List.any_eq_true]
  constructor
  · rintro ⟨head?, isHead, ends⟩
    obtain ⟨behind, read, ends⟩ := (Option.any_eq_true _ _).mp ends
    obtain ⟨head, form, whole⟩ := headReads.mp ⟨head?, isHead, read⟩
    exact ⟨head, behind, form, whole, ends⟩
  · rintro ⟨head, behind, form, whole, ends⟩
    obtain ⟨head?, isHead, read⟩ := headReads.mpr ⟨head, form, whole⟩
    exact ⟨head?, isHead, by rw [read]; exact ends⟩

/-- A head, any text on the same line and a semicolon make a removable line. -/
theorem partsRemovable {leading head body trailing : List Char}
    (leadingBlank : ∀ character ∈ leading, isBlank character) (isHead : Head head)
    (noLineFeed : '\n' ∉ body) (trailingBlank : ∀ character ∈ trailing, isBlank character) :
    isRemovable (leading ++ (head ++ (body ++ ';' :: trailing))) = true :=
  isRemovable_iff.mpr ⟨head, body ++ ';' :: trailing, isHead,
    skipsBlanks leadingBlank (isHead.notBlank _),
    endsStatement_iff.mpr ⟨body, trailing, noLineFeed, trailingBlank, rfl⟩⟩

/-- A line is removable exactly if it is a declaration with white space around it. -/
theorem removableGrammar (line : List Char) :
    isRemovable line = true ↔ ∃ leading statement trailing,
      (∀ character ∈ leading, isBlank character) ∧ Declares statement ∧
        (∀ character ∈ trailing, isBlank character) ∧ line = leading ++ statement ++ trailing := by
  constructor
  · intro removable
    obtain ⟨head, behind, isHead, whole, ends⟩ := isRemovable_iff.mp removable
    obtain ⟨leading, leadingBlank, parted⟩ := takesSkippedBlanks line
    obtain ⟨body, trailing, noLineFeed, trailingBlank, rfl⟩ := endsStatement_iff.mp ends
    refine ⟨leading, head ++ (body ++ [';']), trailing, leadingBlank,
      ⟨head, body, isHead, noLineFeed, rfl⟩, trailingBlank, ?_⟩
    rw [parted, whole]
    simp
  · rintro ⟨leading, _, trailing, leadingBlank, ⟨head, body, isHead, noLineFeed, rfl⟩,
      trailingBlank, rfl⟩
    have removable := partsRemovable leadingBlank isHead noLineFeed trailingBlank
    simpa using removable

end

end LintRepair.Declaration
