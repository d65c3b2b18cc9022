/-
This file states how the matches of the three replacements are written, and shows that the
conversion of a text never undoes itself.
-/

import LintRepair.Fix.RequireImport
import LintRepair.Proofs.Text.Scanned
import LintRepair.Proofs.Text.Reader

namespace LintRepair.RequireImport

open Text Unicode

/-- An equals sign and a call of `require` as they are written. -/
def CallForm (part source : List Char) : Prop :=
  ∃ before behind argument, (∀ character ∈ before, isBlank character) ∧
    (∀ character ∈ behind, isBlank character) ∧ QuotedForm argument source ∧
    part = before ++ '=' :: behind ++ "require".toList ++ argument

/-- A constant with one name as it is written. -/
def SingleForm (part : List Char) (require : RequireImport) : Prop :=
  ∃ blanks call, blanks ≠ [] ∧ (∀ character ∈ blanks, isBlank character) ∧
    require.binding ≠ [] ∧ (∀ character ∈ require.binding, isWordCharacter character) ∧
    CallForm call require.source ∧ part = "const".toList ++ blanks ++ require.binding ++ call

/-- A constant with names in braces as it is written. Inline blanks may stand around the names. -/
def DestructuredForm (part : List Char) (require : RequireImport) : Prop :=
  ∃ blanks before behind call, blanks ≠ [] ∧ (∀ character ∈ blanks, isBlank character) ∧
    (∀ character ∈ before, isInlineBlank character) ∧
    (∀ character ∈ behind, isInlineBlank character) ∧ require.binding ≠ [] ∧
    (∀ character ∈ require.binding, character ≠ '\x7d') ∧ CallForm call require.source ∧
    part = "const".toList ++ blanks ++ '\x7b' :: before ++ require.binding ++ behind ++
      '\x7d' :: call

/-- A dynamic import as it is written. -/
def DynamicForm (part source : List Char) : Prop :=
  ∃ argument, QuotedForm argument source ∧ part = "import".toList ++ argument

theorem takesCall {text source behind : List Char} (read : call? text = some (source, behind)) :
    ∃ part, CallForm part source ∧ text = part ++ behind := by
  simp only [call?, Option.bind_eq_bind, Option.bind_eq_some_iff, literal_eq_some_iff] at read
  obtain ⟨afterEquals, equals, afterRequire, require, readArgument⟩ := read
  obtain ⟨before, beforeBlank, whole⟩ := takesSkippedBlanks text
  obtain ⟨between, betweenBlank, rest⟩ := takesSkippedBlanks afterEquals
  obtain ⟨argument, form, rfl⟩ := takesQuotedArgument readArgument
  refine ⟨_, ⟨before, between, argument, beforeBlank, betweenBlank, form, rfl⟩, ?_⟩
  rw [whole, equals, rest, require]
  simp

theorem takesSingle : Takes single SingleForm := by
  intro before text require behind matched
  simp only [single, Option.bind_eq_bind, Option.bind_eq_some_iff, Option.pure_def,
    Option.some.injEq, Prod.mk.injEq, literal_eq_some_iff] at matched
  obtain ⟨afterConst, rfl, afterBlanks, readBlanks, ⟨binding, afterBinding⟩, readBinding,
    ⟨source, afterCall⟩, readCall, rfl, rfl⟩ := matched
  obtain ⟨blanks, notEmpty, areBlank, rfl⟩ := takesBlanks readBlanks
  obtain ⟨named, wordCharacters, rfl⟩ := takesRun readBinding
  obtain ⟨call, form, rfl⟩ := takesCall readCall
  exact ⟨_, ⟨blanks, call, notEmpty, areBlank, named, wordCharacters, form, rfl⟩, by simp⟩

/-- The names are what the braces hold, without blanks at the ends. -/
theorem namesInside {inside binding : List Char} (read : names? inside = some binding) :
    ∃ before behind, (∀ character ∈ before, isInlineBlank character) ∧
      (∀ character ∈ behind, isInlineBlank character) ∧ binding ≠ [] ∧
      inside = before ++ binding ++ behind := by
  have front := List.takeWhile_append_dropWhile (p := isInlineBlank) (l := inside)
  have frontBlank : ∀ character ∈ inside.takeWhile isInlineBlank, isInlineBlank character :=
    fun _ isFront => List.mem_takeWhile_imp isFront
  unfold names? at read
  split at read
  · next allBlank =>
    obtain ⟨last, isLast, rfl⟩ := Option.map_eq_some_iff.mp read
    obtain ⟨initial, rfl⟩ := List.getLast?_eq_some_iff.mp isLast
    have blank : ∀ character ∈ initial ++ [last], isInlineBlank character := by
      intro character isInside
      rw [← front] at isInside
      rcases List.mem_append.mp isInside with isFront | isRest
      · exact frontBlank character isFront
      · rw [List.dropWhile_eq_nil_iff] at allBlank
        exact allBlank character (List.mem_reverse.mpr isRest)
    exact ⟨initial, [], fun character isInitial => blank character (by simp [isInitial]),
      by simp, by simp, by simp⟩
  · next notEmpty =>
    cases read
    have back := List.takeWhile_append_dropWhile (p := isInlineBlank)
      (l := (inside.dropWhile isInlineBlank).reverse)
    refine ⟨_, ((inside.dropWhile isInlineBlank).reverse.takeWhile isInlineBlank).reverse,
      frontBlank, ?_, by rwa [Ne, List.reverse_eq_nil_iff], ?_⟩
    · intro character isBack
      exact List.mem_takeWhile_imp (List.mem_reverse.mp isBack)
    · have turned := congrArg List.reverse back
      rw [List.reverse_append, List.reverse_reverse] at turned
      rw [List.append_assoc, turned, front]

theorem takesDestructured : Takes destructured DestructuredForm := by
  intro before text require behind matched
  simp only [destructured, Option.bind_eq_bind, Option.bind_eq_some_iff, Option.pure_def,
    Option.some.injEq, Prod.mk.injEq, literal_eq_some_iff] at matched
  obtain ⟨afterConst, rfl, afterBlanks, readBlanks, inBraces, rfl, binding, readNames,
    afterBraces, closed, ⟨source, afterCall⟩, readCall, rfl, rfl⟩ := matched
  obtain ⟨blanks, notEmpty, areBlank, rfl⟩ := takesBlanks readBlanks
  obtain ⟨front, back, frontBlank, backBlank, named, inside⟩ := namesInside readNames
  obtain ⟨call, form, rfl⟩ := takesCall readCall
  have braces := List.takeWhile_append_dropWhile (p := (· != '\x7d')) (l := inBraces)
  rw [closed, inside] at braces
  refine ⟨_, ⟨blanks, front, back, call, notEmpty, areBlank, frontBlank, backBlank, named, ?_,
    form, rfl⟩, by rw [← braces]; simp⟩
  intro character isName
  have isInside : character ∈ inBraces.takeWhile (· != '\x7d') := by
    rw [inside]
    simp [isName]
  simpa using List.mem_takeWhile_imp isInside

theorem takesDynamic : Takes dynamic DynamicForm := by
  intro before text source behind matched
  simp only [dynamic, Option.bind_eq_bind, Option.bind_eq_some_iff, literal_eq_some_iff] at matched
  obtain ⟨afterImport, rfl, readArgument⟩ := matched
  obtain ⟨argument, form, rfl⟩ := takesQuotedArgument readArgument
  exact ⟨_, ⟨argument, form, rfl⟩, by simp⟩

theorem singleConsumes : Consumes single :=
  takesSingle.consumes fun _ _ ⟨_, _, _, _, _, _, _, whole⟩ => by simp [whole]

theorem destructuredConsumes : Consumes destructured :=
  takesDestructured.consumes fun _ _ ⟨_, _, _, _, _, _, _, _, _, _, _, whole⟩ => by simp [whole]

theorem dynamicFilled (part source : List Char) (form : DynamicForm part source) : part ≠ [] := by
  obtain ⟨argument, -, rfl⟩ := form
  exact List.append_ne_nil_of_left_ne_nil (by decide) argument

theorem dynamicConsumes : Consumes dynamic :=
  takesDynamic.consumes dynamicFilled

def isEquals (character : Char) : Bool :=
  character == '='

theorem equalsInBlanks {blanks : List Char} (areBlank : ∀ character ∈ blanks, isBlank character) :
    blanks.countP isEquals = 0 := by
  refine List.countP_eq_zero.mpr fun character inside => ?_
  rw [isEquals, beq_iff_eq]
  rintro rfl
  exact absurd (areBlank '=' inside) (by decide)

theorem equalsInInlineBlanks {blanks : List Char}
    (areBlank : ∀ character ∈ blanks, isInlineBlank character) :
    blanks.countP isEquals = 0 := by
  refine List.countP_eq_zero.mpr fun character inside => ?_
  rw [isEquals, beq_iff_eq]
  rintro rfl
  exact absurd (areBlank '=' inside) (by decide)

theorem equalsInQuoted {part argument : List Char} (form : QuotedForm part argument) :
    part.countP isEquals = argument.countP isEquals := by
  have quoteNotEquals : ∀ mark, isQuote mark → isEquals mark = false := by
    intro mark isMark
    rw [isEquals, beq_eq_false_iff_ne]
    rintro rfl
    cases isMark
  obtain ⟨first, last, isFirst, isLast, -, -, rfl⟩ := form
  have parentheses : isEquals '(' = false ∧ isEquals ')' = false := by decide
  simp [quoteNotEquals first isFirst, quoteNotEquals last isLast, parentheses]

theorem equalsInCall {part source : List Char} (form : CallForm part source) :
    part.countP isEquals = source.countP isEquals + 1 := by
  obtain ⟨before, behind, argument, beforeBlank, behindBlank, quoted, rfl⟩ := form
  have require : "require".toList.countP isEquals = 0 := by decide
  simp only [List.countP_append, List.countP_cons, equalsInBlanks beforeBlank,
    equalsInBlanks behindBlank, equalsInQuoted quoted, require]
  simp [isEquals, Nat.add_comm]

theorem equalsInQuoteMarks (source : List Char) :
    (quoted source).countP isEquals = source.countP isEquals := by
  simp [quoted, isEquals]

/-- A declaration has one equals sign less than the constant that it replaces. -/
theorem singleLosesEquals (part : List Char) (require : RequireImport)
    (form : SingleForm part require) :
    (singleDeclaration require).countP isEquals + 1 = part.countP isEquals + 0 := by
  obtain ⟨blanks, call, -, areBlank, -, -, callForm, whole⟩ := form
  have const : "const".toList.countP isEquals = 0 := by decide
  have importWord : "import ".toList.countP isEquals = 0 := by decide
  have fromWord : " from ".toList.countP isEquals = 0 := by decide
  have before : part.countP isEquals =
      require.binding.countP isEquals + (require.source.countP isEquals + 1) := by
    simp only [whole, List.countP_append, const, equalsInBlanks areBlank, equalsInCall callForm,
      Nat.zero_add]
  have after : (singleDeclaration require).countP isEquals =
      require.binding.countP isEquals + require.source.countP isEquals := by
    unfold singleDeclaration
    simp only [List.countP_append, importWord, fromWord, equalsInQuoteMarks, Nat.zero_add,
      Nat.add_zero]
  omega

theorem destructuredLosesEquals (part : List Char) (require : RequireImport)
    (form : DestructuredForm part require) :
    (namedDeclaration require).countP isEquals + 1 = part.countP isEquals + 0 := by
  obtain ⟨blanks, front, back, call, -, areBlank, frontBlank, backBlank, -, -, callForm, whole⟩ :=
    form
  have const : "const".toList.countP isEquals = 0 := by decide
  have importWord : "import \x7b ".toList.countP isEquals = 0 := by decide
  have fromWord : " \x7d from ".toList.countP isEquals = 0 := by decide
  have braces : isEquals '\x7b' = false ∧ isEquals '\x7d' = false := by decide
  have before : part.countP isEquals =
      require.binding.countP isEquals + (require.source.countP isEquals + 1) := by
    simp only [whole, List.countP_append, List.countP_cons, const, braces.1, braces.2,
      equalsInBlanks areBlank, equalsInInlineBlanks frontBlank, equalsInInlineBlanks backBlank,
      equalsInCall callForm, Bool.false_eq_true, ↓reduceIte, Nat.zero_add, Nat.add_zero]
  have after : (namedDeclaration require).countP isEquals =
      require.binding.countP isEquals + require.source.countP isEquals := by
    unfold namedDeclaration
    simp only [List.countP_append, importWord, fromWord, equalsInQuoteMarks, Nat.zero_add,
      Nat.add_zero]
  omega

theorem dynamicKeepsEquals (part source : List Char) (form : DynamicForm part source) :
    (awaitedImport source).countP isEquals + 0 = part.countP isEquals + 0 := by
  obtain ⟨argument, quotedForm, whole⟩ := form
  have importWord : "import".toList.countP isEquals = 0 := by decide
  have awaitWord : "await import(".toList.countP isEquals = 0 := by decide
  have close : [')'].countP isEquals = 0 := by decide
  unfold awaitedImport
  simp only [whole, List.countP_append, importWord, awaitWord, close, equalsInQuoteMarks,
    equalsInQuoted quotedForm, Nat.zero_add, Nat.add_zero]

theorem dynamicGainsLength (part source : List Char) (form : DynamicForm part source) :
    (awaitedImport source).countP (fun _ => true) + 0 = part.countP (fun _ => true) + 6 := by
  obtain ⟨argument, ⟨first, last, -, -, -, -, inner⟩, whole⟩ := form
  have importWord : "import".toList.length = 6 := by decide
  have awaitWord : "await import(".toList.length = 13 := by decide
  have before : part.length = source.length + 10 := by
    simp only [whole, inner, List.length_append, List.length_cons, List.length_nil, importWord]
    omega
  have after : (awaitedImport source).length = source.length + 16 := by
    unfold awaitedImport quoted
    simp only [List.length_append, List.length_cons, List.length_nil, awaitWord]
    omega
  simp only [List.countP_true]
  omega

end LintRepair.RequireImport

namespace LintRepair.ImportConversion

open Text RequireImport

/-- The equals signs of a text tell how many constants became declarations. -/
theorem equalsInConversion (text : List Char) :
    (ofText text).text.countP isEquals +
        ((occurrences single text).length +
          (occurrences destructured (replaceAll single singleDeclaration text)).length) =
      text.countP isEquals := by
  have first := countReplaceAll takesSingle singleLosesEquals text
  have second := countReplaceAll takesDestructured destructuredLosesEquals
    (replaceAll single singleDeclaration text)
  have third := countReplaceAll takesDynamic dynamicKeepsEquals (declared text)
  simp only [ofText, declared] at first second third ⊢
  omega

/-- The three replacements never cancel out: a conversion without effect has replaced nothing. -/
theorem text_eq_iff (text : List Char) :
    (ofText text).text = text ↔ (ofText text).replacements = 0 := by
  constructor
  · intro unchanged
    have equals := equalsInConversion text
    rw [unchanged] at equals
    have noSingle : occurrences single text = [] := List.length_eq_zero_iff.mp (by omega)
    have afterSingle := replaceAllWithoutMatch noSingle singleDeclaration
    rw [afterSingle] at equals
    have noDestructured : occurrences destructured text = [] :=
      List.length_eq_zero_iff.mp (by omega)
    have afterDestructured := replaceAllWithoutMatch noDestructured namedDeclaration
    -- Both forms of `require` are absent, so a dynamic import would make the text longer.
    have same : declared text = text := by rw [declared, afterSingle, afterDestructured]
    have final : replaceAll dynamic awaitedImport (declared text) = text := unchanged
    have longer := countReplaceAll takesDynamic dynamicGainsLength text
    rw [same] at final
    rw [final] at longer
    simp only [ofText, afterSingle, same, noSingle, noDestructured, List.length_nil]
    omega
  · intro nothing
    simp only [ofText, Nat.add_eq_zero_iff, List.length_eq_zero_iff] at nothing
    obtain ⟨⟨noSingle, noDestructured⟩, noDynamic⟩ := nothing
    have afterSingle := replaceAllWithoutMatch noSingle singleDeclaration
    have same : declared text = text := by
      rw [declared, replaceAllWithoutMatch noDestructured, afterSingle]
    simp only [ofText]
    rw [replaceAllWithoutMatch noDynamic, same]

end LintRepair.ImportConversion
