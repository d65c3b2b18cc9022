/-
This file tells lines with one complete statement from other lines by their brackets and semicolons.
A removable line need not be one: the text between its head and its last semicolon is not looked at.
-/

import LintRepair.Proofs.Fix.Declaration

namespace LintRepair.Declaration

open Text Unicode

/-- The opening brackets with those that close them. -/
def brackets : List (Char × Char) :=
  [('(', ')'), ('[', ']'), ('{', '}')]

/-- The brackets that are still to be closed, the innermost first. There is no result when a bracket
closes another one than the innermost. -/
def nest? (expected : List Char) (character : Char) : Option (List Char) :=
  match brackets.lookup character with
  | some closing => some (closing :: expected)
  | none =>
    if character ∈ brackets.map Prod.snd then
      match expected with
      | [] => none
      | innermost :: outer => if character = innermost then some outer else none
    else some expected

/-- Every bracket of a text closes the innermost open one, and none stays open. -/
def Balanced (text : List Char) : Prop :=
  text.foldlM nest? [] = some []

/-- A semicolon that stands in no bracket has something else behind it than white space and
semicolons. -/
def SecondStatement (text : List Char) : Prop :=
  ∃ first rest, text = first ++ ';' :: rest ∧ Balanced first ∧
    ∃ character ∈ rest, isBlank character = false ∧ character ≠ ';'

/-- One statement, and the whole of it. -/
def SingleStatement (text : List Char) : Prop :=
  Balanced text ∧ ¬ SecondStatement text

/-- The brackets of a text are balanced, and no statement ends in it. -/
def Closed (text : List Char) : Prop :=
  Balanced text ∧ ∀ first rest, text = first ++ ';' :: rest → ¬ Balanced first

/-- The characters that decide where statements end. -/
def marks : List Char :=
  ['(', ')', '[', ']', '{', '}', ';']

instance (text : List Char) : Decidable (Balanced text) :=
  inferInstanceAs (Decidable (_ = _))

theorem balancedAppend {first second : List Char} (balanced : Balanced first) :
    Balanced (first ++ second) ↔ Balanced second := by
  rw [Balanced, List.foldlM_append, balanced]
  rfl

theorem bracketsMarked : ∀ pair ∈ brackets, pair.1 ∈ marks ∧ pair.2 ∈ marks := by
  decide

theorem nestPlain {character : Char} (plain : character ∉ marks) (expected : List Char) :
    nest? expected character = some expected := by
  have notOpening : brackets.lookup character = none := by
    rw [List.lookup_eq_none_iff]
    intro pair isPair
    apply bne_iff_ne.mpr
    rintro rfl
    exact plain (bracketsMarked pair isPair).1
  have notClosing : character ∉ brackets.map Prod.snd := by
    intro isClosing
    obtain ⟨pair, isPair, rfl⟩ := List.mem_map.mp isClosing
    exact plain (bracketsMarked pair isPair).2
  simp [nest?, notOpening, notClosing]

theorem nestAllPlain {text : List Char} (plain : ∀ character ∈ text, character ∉ marks)
    (expected : List Char) : text.foldlM nest? expected = some expected := by
  induction text with
  | nil => rfl
  | cons character text inductionHypothesis =>
    rw [List.foldlM_cons, nestPlain (plain character List.mem_cons_self)]
    exact inductionHypothesis fun other inside => plain other (List.mem_cons_of_mem _ inside)

theorem closedPlain {text : List Char} (plain : ∀ character ∈ text, character ∉ marks) :
    Closed text := by
  refine ⟨nestAllPlain plain [], fun first rest whole => ?_⟩
  exact absurd (by decide) (plain ';' (by rw [whole]; simp))

theorem marksNotBlank : ∀ mark ∈ marks, isBlank mark = false := by
  decide

theorem marksNotWord : ∀ mark ∈ marks, isWordCharacter mark = false := by
  decide

theorem blanksPlain {blanks : List Char} (areBlank : ∀ character ∈ blanks, isBlank character) :
    ∀ character ∈ blanks, character ∉ marks := by
  intro character inside isMark
  have notBlank := marksNotBlank character isMark
  rw [areBlank character inside] at notBlank
  cases notBlank

theorem wordPlain {name : List Char} (isWord : ∀ character ∈ name, isWordCharacter character) :
    ∀ character ∈ name, character ∉ marks := by
  intro character inside isMark
  have notWord := marksNotWord character isMark
  rw [isWord character inside] at notWord
  cases notWord

/-- What stands behind a closed text decides whether both together are one statement. -/
theorem singleBehind {closed text : List Char} (isClosed : Closed closed) :
    SingleStatement (closed ++ text) ↔ SingleStatement text := by
  have second : SecondStatement (closed ++ text) ↔ SecondStatement text := by
    constructor
    · rintro ⟨first, rest, whole, balanced, others⟩
      rcases List.append_eq_append_iff.mp whole with ⟨front, rfl, rfl⟩ | ⟨behind, parted, others'⟩
      · exact ⟨front, rest, rfl, (balancedAppend isClosed.1).mp balanced, others⟩
      · cases behind with
        | nil =>
          obtain rfl : closed = first := by simpa using parted
          exact ⟨[], rest, others'.symm, rfl, others⟩
        | cons character behind =>
          obtain ⟨rfl, -⟩ := List.cons_eq_cons.mp others'
          exact absurd balanced (isClosed.2 first behind parted)
    · rintro ⟨first, rest, rfl, balanced, others⟩
      exact ⟨closed ++ first, rest, (List.append_assoc _ _ _).symm,
        (balancedAppend isClosed.1).mpr balanced, others⟩
  rw [SingleStatement, SingleStatement, balancedAppend isClosed.1, second]

/-- The last semicolon and the white space behind it end a statement and begin no other. -/
theorem singleEnded {text trailing : List Char}
    (trailingBlank : ∀ character ∈ trailing, isBlank character) :
    SingleStatement (text ++ ';' :: trailing) ↔ SingleStatement text := by
  have balanced : Balanced (text ++ ';' :: trailing) ↔ Balanced text := by
    have ended : ∀ expected, (';' :: trailing).foldlM nest? expected = some expected :=
      fun expected => nestAllPlain (blanksPlain trailingBlank) expected
    rw [Balanced, List.foldlM_append, funext ended]
    exact Iff.of_eq (congrArg (· = some []) (bind_pure _))
  have nothingBehind : ∀ character ∈ ';' :: trailing,
      ¬ (isBlank character = false ∧ character ≠ ';') := by
    rintro character inside ⟨notBlank, notEnd⟩
    rcases List.mem_cons.mp inside with isEnd | inside
    · exact notEnd isEnd
    · rw [trailingBlank character inside] at notBlank
      cases notBlank
  have second : SecondStatement (text ++ ';' :: trailing) ↔ SecondStatement text := by
    constructor
    · rintro ⟨first, rest, whole, level, character, inside, other⟩
      rcases List.append_eq_append_iff.mp whole with ⟨front, -, ended⟩ | ⟨behind, rfl, begun⟩
      · exact absurd other (nothingBehind character (by rw [ended]; simp [inside]))
      · cases behind with
        | nil => exact absurd other (nothingBehind character (by
            rw [List.nil_append] at begun
            rw [← begun]
            exact List.mem_cons_of_mem _ inside))
        | cons semicolon behind =>
          obtain ⟨rfl, rfl⟩ := List.cons_eq_cons.mp begun
          rcases List.mem_append.mp inside with inside | inside
          · exact ⟨first, behind, rfl, level, character, inside, other⟩
          · exact absurd other (nothingBehind character inside)
    · rintro ⟨first, rest, rfl, level, character, inside, other⟩
      exact ⟨first, rest ++ ';' :: trailing, List.append_assoc _ _ _, level, character,
        List.mem_append_left _ inside, other⟩
  rw [SingleStatement, SingleStatement, balanced, second]

/-- Only the names in braces can hold brackets or semicolons before the body of a declaration. -/
theorem Head.closed {head : List Char} (isHead : Head head) (notNamed : ¬ NamedImportHead head) :
    Closed head := by
  cases isHead with
  | @assignment keyword _ isKeyword form =>
    obtain ⟨gap, name, blanks, -, gapBlank, -, isWord, areBlank, rfl⟩ := form
    have keywordPlain : ∀ character ∈ keyword, character ∉ marks := by
      simp only [List.mem_cons, List.not_mem_nil, or_false] at isKeyword
      rcases isKeyword with rfl | rfl | rfl <;> decide
    apply closedPlain
    simp only [List.forall_mem_append]
    exact ⟨keywordPlain, blanksPlain gapBlank, wordPlain isWord, blanksPlain areBlank, by decide⟩
  | namedImport form => exact absurd form notNamed
  | defaultImport form =>
    obtain ⟨gap, name, between, -, gapBlank, -, isWord, -, betweenBlank, rfl⟩ := form
    apply closedPlain
    simp only [List.forall_mem_append]
    exact ⟨by decide, blanksPlain gapBlank, wordPlain isWord, blanksPlain betweenBlank, by decide⟩

/-- Whatever stands between the head and the last semicolon, the line is removable. Whether it is one
complete statement is decided there alone, unless the head names imports in braces. -/
theorem bodyOverlooked {leading head body trailing : List Char}
    (leadingBlank : ∀ character ∈ leading, isBlank character) (isHead : Head head)
    (noLineFeed : '\n' ∉ body) (trailingBlank : ∀ character ∈ trailing, isBlank character) :
    let line := leading ++ (head ++ (body ++ ';' :: trailing))
    isRemovable line = true ∧ (SingleStatement line ↔ SingleStatement (head ++ body)) ∧
      (¬ NamedImportHead head → (SingleStatement line ↔ SingleStatement body)) := by
  intro line
  have parts : SingleStatement line ↔ SingleStatement (head ++ body) := by
    show SingleStatement (leading ++ (head ++ (body ++ ';' :: trailing))) ↔ _
    rw [singleBehind (closedPlain (blanksPlain leadingBlank)), ← List.append_assoc,
      singleEnded trailingBlank]
  refine ⟨partsRemovable leadingBlank isHead noLineFeed trailingBlank, parts, fun notNamed => ?_⟩
  rw [parts, singleBehind (isHead.closed notNamed)]

/-- The second statement goes with the constant. -/
theorem callOverlooked :
    let head := "const a =".toList
    let body := " 1; foo()".toList
    Head head ∧ '\n' ∉ body ∧ ¬ NamedImportHead head ∧
      isRemovable (head ++ (body ++ [';'])) = true ∧
      (SingleStatement (head ++ (body ++ [';'])) ↔ SingleStatement body) := by
  intro head body
  have form : VariableHead "const".toList head :=
    ⟨[' '], ['a'], [' '], by decide, by decide, by decide, by decide, by decide, by decide⟩
  have isHead : Head head := .assignment (by decide) form
  have notNamed : ¬ NamedImportHead head := by
    rintro ⟨before, names, after, -, -, -, whole⟩
    cases congrArg List.head? whole
  have noLineFeed : '\n' ∉ body := by decide
  have overlooked := @bodyOverlooked [] head body [] (by simp) isHead noLineFeed (by simp)
  exact ⟨isHead, noLineFeed, notNamed, overlooked.1, overlooked.2.2 notNamed⟩

/-- Text without quotation marks and slashes, in which every bracket and semicolon counts. -/
def Unquoted (text : List Char) : Prop :=
  ∀ character ∈ text, character ∉ ['\'', '"', '\x60', '/']

instance (text : List Char) : Decidable (Unquoted text) :=
  inferInstanceAs (Decidable (∀ character ∈ text, _))

/-- Neither a second statement nor an open bracket keeps a line from being removable. -/
theorem statementsNotGuarded :
    (¬ ∀ line, Unquoted line → SecondStatement line → isRemovable line = false) ∧
      ¬ ∀ line, Unquoted line → ¬ Balanced line → isRemovable line = false := by
  constructor
  · intro guarded
    have second : SecondStatement "const a = 1; foo();".toList :=
      ⟨"const a = 1".toList, " foo();".toList, by decide, by decide, 'f', by decide⟩
    exact absurd (guarded _ (by decide) second) (by decide)
  · intro guarded
    have opened : ¬ Balanced "const f = () => \x7b return 1;".toList := by decide
    exact absurd (guarded _ (by decide) opened) (by decide)

end LintRepair.Declaration
