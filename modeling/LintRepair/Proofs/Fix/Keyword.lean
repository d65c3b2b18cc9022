/-
This file tells which replacements of a conversion begin behind a character of an identifier, where
a keyword is the end of a longer name.
-/

import LintRepair.Proofs.Fix.Identifier
import LintRepair.Proofs.Fix.RequireGone
import LintRepair.Proofs.Text.Span

namespace LintRepair.RequireImport

open Text Unicode

/-- What stands before the module of a constant with one name, and of its declaration. -/
def WritesSingle (before after : List Char) : Prop :=
  SingleHead before ∧ ∃ binding, (∀ character ∈ binding, isWordCharacter character) ∧
    after = "import ".toList ++ (binding ++ " from ".toList)

/-- What stands before and behind the names of a constant, and of its declaration. -/
def WritesNames (before after : List Char) : Prop :=
  (∃ blanks inner, (∀ character ∈ blanks, isBlank character) ∧
      (∀ character ∈ inner, isBlank character) ∧
      before = "const".toList ++ (blanks ++ '\x7b' :: inner) ∧ after = "import \x7b ".toList) ∨
    ∃ inner head, (∀ character ∈ inner, isBlank character) ∧ CallHead head ∧
      before = inner ++ '\x7d' :: head ∧ after = " \x7d from ".toList

/-- What a declaration brings ends with a space and opens and closes no parenthesis. -/
structure Spaced (Writes : List Char → List Char → Prop) : Prop extends Neutral Writes where
  spaced : ∀ {before after}, Writes before after → ∃ front, after = front ++ [' ']
  noOpening : ∀ {before after}, Writes before after → '(' ∉ after

/-- What stands before the module of a dynamic import. -/
def DynamicHead (head : List Char) : Prop :=
  head = "import(".toList

theorem dynamicReads {before : Option Char} {text : List Char} :
    (dynamic before text).isSome ↔ Quoting DynamicHead text := by
  constructor
  · intro read
    obtain ⟨⟨source, behind⟩, read⟩ := Option.isSome_iff_exists.mp read
    obtain ⟨_, ⟨_, ⟨first, last, isFirst, isLast, notEmpty, noQuotes, rfl⟩, rfl⟩, rfl⟩ :=
      takesDynamic before text source behind read
    refine ⟨"import(".toList, first, source ++ last :: ')' :: behind, rfl, isFirst,
      ⟨source, last, behind, notEmpty, noQuotes, isLast, rfl⟩, ?_⟩
    rw [importOpened]
    simp
  · rintro ⟨_, first, _, rfl, isFirst, ⟨source, last, behind, notEmpty, noQuotes, isLast, rfl⟩, rfl⟩
    rw [dynamic, importOpened, List.append_assoc, literalAppend, Option.bind_eq_bind,
      Option.bind_some, List.singleton_append,
      readsQuotedArgument isFirst isLast notEmpty noQuotes]
    rfl

theorem singleRewritten (text : List Char) :
    Rewritten WritesSingle text (replaceAll single singleDeclaration text) := by
  apply rewrittenReplaced singleConsumes takesSingle
  rintro part ⟨binding, module⟩ form source target rewritten
  obtain ⟨blanks, call, notEmpty, areBlank, named, wordCharacters, callForm, rfl⟩ := form
  obtain ⟨head, first, last, isHead, isFirst, isLast, -, -, rfl⟩ := callParts callForm
  have writes : WritesSingle ("const".toList ++ (blanks ++ (binding ++ head)))
      ("import ".toList ++ (binding ++ " from ".toList)) :=
    ⟨⟨blanks, binding, head, notEmpty, areBlank, named, wordCharacters, isHead, rfl⟩, binding,
      wordCharacters, rfl⟩
  have whole := Rewritten.moved writes (rewritten.quoted isFirst isLast module)
  unfold singleDeclaration quoted
  simpa only [List.append_assoc, List.cons_append, List.nil_append] using whole

theorem namesRewritten (text : List Char) :
    Rewritten WritesNames text (replaceAll destructured namedDeclaration text) := by
  apply rewrittenReplaced destructuredConsumes takesDestructured
  rintro part ⟨binding, module⟩ form source target rewritten
  obtain ⟨blanks, front, back, call, -, areBlank, frontBlank, backBlank, -, -, callForm, rfl⟩ :=
    form
  obtain ⟨head, first, last, isHead, isFirst, isLast, -, -, rfl⟩ := callParts callForm
  have opens : WritesNames ("const".toList ++ (blanks ++ '\x7b' :: front))
      ("import \x7b ".toList) :=
    .inl ⟨blanks, front, areBlank, inlineBlanksBlank frontBlank, rfl, rfl⟩
  have closes : WritesNames (back ++ '\x7d' :: head) (" \x7d from ".toList) :=
    .inr ⟨back, head, inlineBlanksBlank backBlank, isHead, rfl, rfl⟩
  have whole := Rewritten.moved opens
    ((Rewritten.moved closes (rewritten.quoted isFirst isLast module)).behind binding)
  unfold namedDeclaration quoted
  simpa only [List.append_assoc, List.cons_append, List.nil_append] using whole

/-- A declaration of one name holds plain characters up to its module. -/
theorem singleWritesPlain {before after : List Char} (writes : WritesSingle before after) :
    ∀ character ∈ after, isPlain character := by
  obtain ⟨-, binding, wordCharacters, rfl⟩ := writes
  simp only [List.forall_mem_append]
  exact ⟨List.all_eq_true.mp (by decide), plainWord wordCharacters, List.all_eq_true.mp (by decide)⟩

theorem singleSpaced : Spaced WritesSingle := by
  have notInside : ∀ {before after}, WritesSingle before after → ∀ mark, isPlain mark = false →
      mark ∉ after := by
    intro before after writes mark notPlain inside
    rw [singleWritesPlain writes mark inside] at notPlain
    cases notPlain
  refine ⟨⟨?_, ?_, ?_⟩, ?_, ?_⟩
  · rintro before after ⟨⟨blanks, binding, call, -, -, -, -, -, rfl⟩, name, -, rfl⟩
    simp
  · intro before after writes
    exact ⟨writes.1.calling.noQuotes, plainFree quoteNotPlain (singleWritesPlain writes)⟩
  · intro before after writes
    exact notInside writes ')' (by decide)
  · rintro before after ⟨-, binding, -, rfl⟩
    exact ⟨"import ".toList ++ (binding ++ " from".toList), by simp⟩
  · intro before after writes
    exact notInside writes '(' (by decide)

theorem namesSpaced : Spaced WritesNames := by
  refine ⟨⟨?_, ?_, ?_⟩, ?_, ?_⟩
  · rintro before after (⟨blanks, inner, -, -, rfl, rfl⟩ | ⟨inner, head, -, -, rfl, rfl⟩)
    · simp
    · simp
  · rintro before after (⟨blanks, inner, areBlank, innerBlank, rfl, rfl⟩ |
      ⟨inner, head, innerBlank, isHead, rfl, rfl⟩)
    · exact ⟨freeAppend.mpr ⟨by decide, freeAppend.mpr ⟨blanksNoQuotes areBlank,
        List.forall_mem_cons.mpr ⟨rfl, blanksNoQuotes innerBlank⟩⟩⟩, by decide⟩
    · exact ⟨freeAppend.mpr ⟨blanksNoQuotes innerBlank,
        List.forall_mem_cons.mpr ⟨rfl, isHead.calling.noQuotes⟩⟩, by decide⟩
  · rintro before after (⟨-, -, -, -, -, rfl⟩ | ⟨-, -, -, -, -, rfl⟩)
    · decide
    · decide
  · rintro before after (⟨-, -, -, -, -, rfl⟩ | ⟨-, -, -, -, -, rfl⟩)
    · exact ⟨"import \x7b".toList, by decide⟩
    · exact ⟨" \x7d from".toList, by decide⟩
  · rintro before after (⟨-, -, -, -, -, rfl⟩ | ⟨-, -, -, -, -, rfl⟩)
    · decide
    · decide

section

variable {Writes : List Char → List Char → Prop} {source target : List Char}

/-- What follows a character that is neither a quotation mark nor a space follows it in the first
text too, or it lies where a part is written anew. -/
theorem Rewritten.behindCharacter (spaced : Spaced Writes)
    (rewritten : Rewritten Writes source target) {character : Char} {behind : List Char}
    (noQuote : isQuote character = false) (notSpace : character ≠ ' ')
    (suffix : character :: behind <:+ target) :
    (∃ behindSource, character :: behindSource <:+ source ∧
        Rewritten Writes behindSource behind) ∨
      ∃ before after middle rest, Writes before after ∧ middle ≠ [] ∧ middle <:+ after ∧
        behind = middle ++ rest := by
  -- The character is not the last one of a part, which is a space.
  have within : ∀ {before after middle rest}, Writes before after → middle ≠ [] →
      middle <:+ after → character :: behind = middle ++ rest →
      ∃ before after middle rest, Writes before after ∧ middle ≠ [] ∧ middle <:+ after ∧
        behind = middle ++ rest := by
    intro before after middle rest writes filled inside whole
    obtain ⟨first, middle, rfl⟩ := List.exists_cons_of_ne_nil filled
    obtain ⟨rfl, rfl⟩ := List.cons_eq_cons.mp whole
    refine ⟨before, after, middle, rest, writes, ?_, (List.suffix_cons _ _).trans inside, rfl⟩
    rintro rfl
    obtain ⟨front, rfl⟩ := spaced.spaced writes
    obtain ⟨others, same⟩ := inside
    exact notSpace (List.singleton_inj.mp (List.append_inj_right' same rfl))
  rcases rewritten.suffix suffix with ⟨behindSource, inside, belongs⟩ |
    ⟨before, after, middle, rest, writes, filled, inside, whole⟩
  · generalize ahead : character :: behind = text at belongs
    cases belongs with
    | done => cases ahead
    | @kept first second source target alike rest =>
      obtain ⟨rfl, rfl⟩ := List.cons_eq_cons.mp ahead
      rcases alike with rfl | ⟨-, isSecond⟩
      · exact .inl ⟨source, inside, rest⟩
      · rw [noQuote] at isSecond
        cases isSecond
    | closed =>
      obtain ⟨rfl, -⟩ := List.cons_eq_cons.mp ahead
      cases noQuote
    | @moved before after source target writes rest =>
      exact .inr (within writes (spaced.filled writes).2 (List.suffix_refl _) ahead)
  · exact .inr (within writes filled inside whole)

/-- A form begins behind a character of an identifier. -/
def Severed (Reads : List Char → Prop) (text : List Char) : Prop :=
  ∃ character behind, Parameter.isIdentifierCharacter character ∧ character :: behind <:+ text ∧
    Reads behind

theorem identifierNoQuote {character : Char}
    (isIdentifier : Parameter.isIdentifierCharacter character) : isQuote character = false := by
  apply Bool.eq_false_iff.mpr
  intro isMark
  rcases Bool.or_eq_true_iff.mp isMark with single | double
  · rw [beq_iff_eq.mp single] at isIdentifier
    revert isIdentifier
    decide
  · rw [beq_iff_eq.mp double] at isIdentifier
    revert isIdentifier
    decide

/-- A text has no form behind an identifier that it did not have before it was rewritten. -/
theorem Rewritten.severed {Reads : List Char → Prop} (spaced : Spaced Writes)
    (beforeRewriting : ∀ {source target}, Rewritten Writes source target → Reads target →
      Reads source)
    (notWithin : ∀ {before after middle}, Writes before after → middle ≠ [] → middle <:+ after →
      ∀ rest, ¬ Reads (middle ++ rest))
    (rewritten : Rewritten Writes source target) (severed : Severed Reads target) :
    Severed Reads source := by
  obtain ⟨character, behind, isIdentifier, suffix, reads⟩ := severed
  have notSpace : character ≠ ' ' := by
    rintro rfl
    revert isIdentifier
    decide
  rcases rewritten.behindCharacter spaced (identifierNoQuote isIdentifier) notSpace suffix with
    ⟨behindSource, inside, belongs⟩ | ⟨before, after, middle, rest, writes, filled, inside, rfl⟩
  · exact ⟨character, behindSource, isIdentifier, inside, beforeRewriting belongs reads⟩
  · exact absurd reads (notWithin writes filled inside rest)

theorem Spaced.dynamicBefore (spaced : Spaced Writes) (rewritten : Rewritten Writes source target)
    (quoting : Quoting DynamicHead target) : Quoting DynamicHead source := by
  refine quoting.beforeRewriting spaced.toNeutral ?_ ?_ rewritten
  · rintro head rfl
    decide
  · rintro before after head writes rfl inside
    obtain ⟨front, rfl⟩ := spaced.spaced writes
    have space : ' ' ∈ "import(".toList := inside.subset (by simp)
    revert space
    decide

theorem Spaced.notDynamic (spaced : Spaced Writes) {before after middle : List Char}
    (writes : Writes before after) (filled : middle ≠ []) (inside : middle <:+ after)
    (rest : List Char) : ¬ Quoting DynamicHead (middle ++ rest) := by
  rintro ⟨_, first, behind, rfl, -, -, whole⟩
  rw [importOpened, List.append_assoc, List.singleton_append] at whole
  obtain ⟨between, word, -⟩ :=
    markBehind (fun opens => spaced.noOpening writes (inside.subset opens)) whole
  obtain ⟨front, rfl⟩ := spaced.spaced writes
  rcases List.suffix_concat_iff.mp inside with empty | ⟨others, rfl, -⟩
  · exact filled empty
  · have space : ' ' ∈ "import".toList := by
      rw [word]
      simp
    revert space
    decide

end

/-- White space and the letters before it do not hold what a declaration brings. -/
theorem singleNotIn {before after text : List Char} (writes : WritesSingle before after)
    (noLetter : 'm' ∉ text) : ¬ after <:+: text := by
  obtain ⟨-, binding, -, rfl⟩ := writes
  exact fun inside => noLetter (inside.subset (by simp))

theorem notInBlanks {character : Char} (notBlank : isBlank character = false) {blanks : List Char}
    (areBlank : ∀ character ∈ blanks, isBlank character) : character ∉ blanks := by
  intro inside
  rw [areBlank character inside] at notBlank
  cases notBlank

theorem bracingBefore {source target : List Char} (rewritten : Rewritten WritesSingle source target)
    (bracing : Bracing target) : Bracing source := by
  refine bracing.beforeRewriting singleSpaced.toNeutral ?_ ?_ ?_ rewritten
  · intro before after writes brace isBrace
    obtain ⟨notPlain, outside⟩ : isPlain brace = false ∧ Free (· == brace) "require(".toList := by
      revert brace
      decide
    exact ⟨writes.1.calling.without notPlain outside,
      plainWithout notPlain (singleWritesPlain writes)⟩
  · intro before after blanks writes areBlank
    apply singleNotIn writes
    rw [List.mem_append, not_or]
    exact ⟨by decide, notInBlanks (by decide) areBlank⟩
  · rintro before after _ writes ⟨front, between, frontBlank, betweenBlank, rfl⟩
    apply singleNotIn writes
    rw [List.mem_append, List.mem_cons, List.mem_append, not_or, not_or, not_or]
    exact ⟨notInBlanks (by decide) frontBlank, by decide, notInBlanks (by decide) betweenBlank,
      by decide⟩

theorem notBracingWithin {before after middle : List Char} (writes : WritesSingle before after)
    (filled : middle ≠ []) (inside : middle <:+ after) (rest : List Char) :
    ¬ Bracing (middle ++ rest) := by
  intro bracing
  obtain ⟨-, binding, -, rfl⟩ := id writes
  have regrouped : "import ".toList ++ (binding ++ " from ".toList) =
      "import ".toList ++ (binding ++ " ".toList) ++ "from ".toList := by simp
  have noBrace : '\x7b' ∉ middle := by
    intro isBrace
    have plain := singleWritesPlain writes _ (inside.subset isBrace)
    revert plain
    decide
  rw [regrouped] at inside
  rcases suffixOfAppend inside with ⟨start, -, -, rfl⟩ | inside
  · obtain ⟨blanks, names, behind, -, areBlank, -, -, -, whole⟩ := bracing
    rw [← List.append_assoc "const".toList] at whole
    obtain ⟨between, same, -⟩ := markBehind noBrace whole
    have letter : 'f' ∈ "const".toList ++ blanks := by
      rw [same]
      simp
    rcases List.mem_append.mp letter with inConst | inBlanks
    · revert inConst
      decide
    · exact notInBlanks (by decide) areBlank inBlanks
  · exact notInLiteral filled inside (by decide) rest bracing.begins

end LintRepair.RequireImport

namespace LintRepair.ImportConversion

open Text Unicode RequireImport

/-- The character directly before a place belongs to an identifier. -/
def followsIdentifier (text : List Char) (place : Nat) : Bool :=
  (text.take place).getLast?.any Parameter.isIdentifierCharacter

/-- A text begins with one of the forms that a conversion replaces. -/
def beginsForm (text : List Char) : Bool :=
  (single none text).isSome || (destructured none text).isSome || (dynamic none text).isSome

/-- The places at which a form begins with the end of a longer name. -/
def severedPlaces (text : List Char) : List Nat :=
  (List.range text.length).filter fun place =>
    followsIdentifier text place && beginsForm (text.drop place)

/-- No replacement begins with the end of a longer name, each in the text in which it is made. -/
structure KeywordsWhole (text : List Char) : Prop where
  constants : ∀ span ∈ spans single text, followsIdentifier text span.start = false
  namedConstants : ∀ span ∈ spans destructured (replaceAll single singleDeclaration text),
    followsIdentifier (replaceAll single singleDeclaration text) span.start = false
  imports : ∀ span ∈ spans dynamic (declared text),
    followsIdentifier (declared text) span.start = false

/-- All keywords of a text are ends of longer names. -/
def KeywordsSevered (text : List Char) : Prop :=
  ∀ place < text.length, "const".toList <+: text.drop place ∨ "import(".toList <+: text.drop place →
    followsIdentifier text place = true

instance (text : List Char) : Decidable (KeywordsSevered text) :=
  inferInstanceAs (Decidable (∀ place < _, _ → _))

section

variable {Value : Type} {pattern : Pattern Value} {Reads : List Char → Prop} {text : List Char}

theorem formFilled (begins : beginsForm text = true) : 0 < text.length := by
  apply List.length_pos_iff.mpr
  rintro rfl
  cases begins

/-- A form is severed where the front before it ends in a character of an identifier. -/
theorem memSeveredPlaces {front behind : List Char} :
    front.length ∈ severedPlaces (front ++ behind) ↔
      followsIdentifier (front ++ behind) front.length = true ∧ beginsForm behind = true := by
  rw [severedPlaces, List.mem_filter, List.drop_left, Bool.and_eq_true, List.mem_range,
    and_iff_right_of_imp]
  rintro ⟨-, begins⟩
  have positive := formFilled begins
  rw [List.length_append]
  omega

/-- If a form nowhere begins behind an identifier, no match of it does. -/
theorem spansWhole (consumes : Consumes pattern) (contextFree : ContextFree pattern)
    (reads : ∀ {text}, (pattern none text).isSome ↔ Reads text) (nowhere : ¬ Severed Reads text) :
    ∀ span ∈ spans pattern text, followsIdentifier text span.start = false := by
  intro span isSpan
  apply Bool.eq_false_iff.mpr
  intro follows
  obtain ⟨front, part, behind, value, rfl, -, start, -, matched⟩ := spansMatch consumes isSpan
  rw [followsIdentifier, List.append_assoc, List.take_left' start] at follows
  obtain ⟨character, last, isIdentifier⟩ := (Option.any_eq_true _ _).mp follows
  obtain ⟨others, rfl⟩ := List.getLast?_eq_some_iff.mp last
  refine nowhere ⟨character, part ++ behind, isIdentifier, ⟨others, by simp⟩, reads.mp ?_⟩
  rw [contextFree] at matched
  rw [matched]
  rfl

theorem noneSevered (begins : ∀ {text}, Reads text → beginsForm text = true)
    (nowhere : severedPlaces text = []) : ¬ Severed Reads text := by
  rintro ⟨character, behind, isIdentifier, ⟨front, rfl⟩, reads⟩
  have follows : followsIdentifier (front ++ [character] ++ behind) (front ++ [character]).length =
      true := by
    rw [followsIdentifier, List.take_left]
    simpa using isIdentifier
  have severed := memSeveredPlaces.mpr ⟨follows, begins reads⟩
  rw [List.append_assoc, List.singleton_append, nowhere] at severed
  cases severed

theorem singleBegins (quoting : Quoting SingleHead text) : beginsForm text = true := by
  simp [beginsForm, singleReads.mpr quoting]

theorem destructuredBegins (bracing : Bracing text) : beginsForm text = true := by
  simp [beginsForm, destructuredReads.mpr bracing]

theorem dynamicBegins (quoting : Quoting DynamicHead text) : beginsForm text = true := by
  simp [beginsForm, dynamicReads.mpr quoting]

theorem keywordsWhole (nowhere : severedPlaces text = []) : KeywordsWhole text := by
  have afterSingle : Rewritten WritesSingle text (replaceAll single singleDeclaration text) :=
    singleRewritten text
  have afterNames : Rewritten WritesNames (replaceAll single singleDeclaration text)
      (declared text) := namesRewritten _
  have noBracing : ¬ Severed Bracing (replaceAll single singleDeclaration text) := fun severed =>
    noneSevered destructuredBegins nowhere
      (afterSingle.severed singleSpaced bracingBefore notBracingWithin severed)
  have noDynamic : ¬ Severed (Quoting DynamicHead) (declared text) := by
    intro severed
    have severedBefore := afterNames.severed namesSpaced namesSpaced.dynamicBefore
      namesSpaced.notDynamic severed
    exact noneSevered dynamicBegins nowhere (afterSingle.severed singleSpaced
      singleSpaced.dynamicBefore singleSpaced.notDynamic severedBefore)
  exact ⟨spansWhole singleConsumes (fun _ _ => rfl) singleReads (noneSevered singleBegins nowhere),
    spansWhole destructuredConsumes (fun _ _ => rfl) destructuredReads noBracing,
    spansWhole dynamicConsumes (fun _ _ => rfl) dynamicReads noDynamic⟩

/-- A conversion replaces nothing exactly if no form begins at any place. -/
theorem replacesNothing_iff :
    (ofText text).replacements = 0 ↔ ∀ behind, behind <:+ text → beginsForm behind = false := by
  have noForm : ∀ behind, beginsForm behind = false ↔
      single none behind = none ∧ destructured none behind = none ∧ dynamic none behind = none := by
    intro behind
    simp [beginsForm, and_assoc]
  simp only [noForm]
  constructor
  · intro nothing
    simp only [ofText, Nat.add_eq_zero_iff, List.length_eq_zero_iff] at nothing
    obtain ⟨⟨noSingle, noDestructured⟩, noDynamic⟩ := nothing
    rw [declared, replaceAllWithoutMatch noDestructured, replaceAllWithoutMatch noSingle,
      ← absent_iff dynamicConsumes, ContextFree.absent_iff fun _ _ => rfl] at noDynamic
    rw [replaceAllWithoutMatch noSingle, ← absent_iff destructuredConsumes,
      ContextFree.absent_iff fun _ _ => rfl] at noDestructured
    rw [← absent_iff singleConsumes, ContextFree.absent_iff fun _ _ => rfl] at noSingle
    exact fun behind inside =>
      ⟨noSingle behind inside, noDestructured behind inside, noDynamic behind inside⟩
  · intro nowhere
    apply nothingReplaced
    · exact (ContextFree.absent_iff (fun _ _ => rfl) text).mpr fun behind inside =>
        (nowhere behind inside).1
    · exact (ContextFree.absent_iff (fun _ _ => rfl) text).mpr fun behind inside =>
        (nowhere behind inside).2.1
    · rw [← absent_iff dynamicConsumes]
      exact (ContextFree.absent_iff (fun _ _ => rfl) text).mpr fun behind inside =>
        (nowhere behind inside).2.2

theorem keywordFirst (begins : beginsForm text = true) :
    "const".toList <+: text ∨ "import(".toList <+: text := by
  rw [beginsForm, Bool.or_eq_true, Bool.or_eq_true, singleReads, destructuredReads,
    dynamicReads] at begins
  rcases begins with (quoting | bracing) | ⟨_, first, behind, rfl, -, -, rfl⟩
  · obtain ⟨blank, behind, -, rfl⟩ := quoting.begins
    exact .inl (List.prefix_append _ _)
  · obtain ⟨blank, behind, -, rfl⟩ := bracing.begins
    exact .inl (List.prefix_append _ _)
  · exact .inr (List.prefix_append _ _)

/-- Ends of longer names are left alone if no form begins with one. -/
theorem severedUnchanged_iff (severed : KeywordsSevered text) :
    ((ofText text).text = text ∧ (ofText text).replacements = 0) ↔ severedPlaces text = [] := by
  rw [text_eq_iff, and_self, replacesNothing_iff]
  constructor
  · intro nowhere
    apply List.filter_eq_nil_iff.mpr
    intro place _
    rw [nowhere _ (List.drop_suffix place text), Bool.and_false]
    exact Bool.false_ne_true
  · rintro nowhere behind ⟨front, rfl⟩
    apply Bool.eq_false_iff.mpr
    intro begins
    have inside : front.length < (front ++ behind).length := by
      have positive := formFilled begins
      rw [List.length_append]
      omega
    have follows := severed front.length inside (by rw [List.drop_left]; exact keywordFirst begins)
    have isSevered := memSeveredPlaces.mpr ⟨follows, begins⟩
    rw [nowhere] at isSevered
    cases isSevered

end

/-- If no form of a text begins with the end of a longer name, none of the replacements does. A text
in which all keywords are ends of longer names stays as it is exactly if no form begins with one. -/
theorem severedPlacesReplaced (text : List Char) :
    (severedPlaces text = [] → KeywordsWhole text) ∧
      (KeywordsSevered text →
        ((ofText text).text = text ∧ (ofText text).replacements = 0 ↔ severedPlaces text = [])) :=
  ⟨keywordsWhole, severedUnchanged_iff⟩

-- A form that begins with the end of a longer name is not replaced within the module of another one.
example :
    severedPlaces "const a = require('xconst b = require(')y\")".toList = [20] ∧
      (ofText "const a = require('xconst b = require(')y\")".toList).text =
        "import a from \"xconst b = require(\"y\")".toList := by
  decide +kernel

/-- Keywords behind a space, and behind letters where they begin no form. -/
def wholeText : List Char :=
  "aconst b; const a = require('m'); reimport(b); import('n')".toList

theorem wholeTextReplaced :
    severedPlaces wholeText = [] ∧ KeywordsWhole wholeText ∧ (ofText wholeText).replacements = 2 ∧
      KeywordsSevered "aconst b; reimport(b)".toList ∧
      (ofText "aconst b; reimport(b)".toList).replacements = 0 := by
  have nowhere : severedPlaces wholeText = [] := by decide +kernel
  have severed : KeywordsSevered "aconst b; reimport(b)".toList := by decide +kernel
  refine ⟨nowhere, (severedPlacesReplaced wholeText).1 nowhere, by decide +kernel, severed, ?_⟩
  exact (((severedPlacesReplaced _).2 severed).mpr (by decide +kernel)).2

/-- A form is replaced although its keyword is the end of a longer name, and the name with it. -/
theorem longerNamesReplaced :
    KeywordsSevered "reimport(\"m\")".toList ∧ ¬ KeywordsWhole "reimport(\"m\")".toList ∧
      ofText "reimport(\"m\")".toList = ⟨"reawait import(\"m\")".toList, 1, 0⟩ ∧
      KeywordsSevered "aconst x = require(\"m\")".toList ∧
      ¬ KeywordsWhole "aconst x = require(\"m\")".toList ∧
      ofText "aconst x = require(\"m\")".toList = ⟨"aimport x from \"m\"".toList, 1, 0⟩ := by
  refine ⟨by decide +kernel, fun whole => ?_, by decide +kernel, by decide +kernel, fun whole => ?_,
    by decide +kernel⟩
  · have follows := whole.imports ⟨2, 13⟩ (by decide +kernel)
    revert follows
    decide +kernel
  · have follows := whole.constants ⟨1, 23⟩ (by decide +kernel)
    revert follows
    decide +kernel

end LintRepair.ImportConversion
