/-
This file shows what happens to a quoted module where a declaration stands in place of a constant:
if one reaches across the seam behind the replacement, one reached across it before.
-/

import LintRepair.Proofs.Fix.RequireCall

namespace LintRepair.RequireImport

open Text Unicode

/-- White space, words and equals signs are all that stands before a call. -/
def isPlain (character : Char) : Bool :=
  isBlank character || isWordCharacter character || character == '='

/-- A head ends with the opened call and has plain characters before it. -/
def Calling (head : List Char) : Prop :=
  ∃ front, (∀ character ∈ front, isPlain character) ∧ head = front ++ "require(".toList

theorem plainBlanks {blanks : List Char} (areBlank : ∀ character ∈ blanks, isBlank character) :
    ∀ character ∈ blanks, isPlain character := by
  intro character inside
  rw [isPlain, areBlank character inside, Bool.true_or, Bool.true_or]

theorem plainWord {word : List Char}
    (wordCharacters : ∀ character ∈ word, isWordCharacter character) :
    ∀ character ∈ word, isPlain character := by
  intro character inside
  rw [isPlain, wordCharacters character inside, Bool.or_true, Bool.true_or]

theorem plainConst : ∀ character ∈ "const".toList, isPlain character :=
  List.all_eq_true.mp (by decide)

theorem CallHead.calling {head : List Char} (isHead : CallHead head) : Calling head := by
  obtain ⟨before, behind, beforeBlank, behindBlank, rfl⟩ := isHead
  refine ⟨before ++ '=' :: behind, ?_, by simp⟩
  simp only [List.forall_mem_append, List.forall_mem_cons]
  exact ⟨plainBlanks beforeBlank, rfl, plainBlanks behindBlank⟩

theorem SingleHead.calling {head : List Char} (isHead : SingleHead head) : Calling head := by
  obtain ⟨blanks, binding, call, -, areBlank, -, wordCharacters, isCall, rfl⟩ := isHead
  obtain ⟨front, plain, rfl⟩ := isCall.calling
  refine ⟨"const".toList ++ (blanks ++ (binding ++ front)), ?_, by simp⟩
  simp only [List.forall_mem_append]
  exact ⟨plainConst, plainBlanks areBlank, plainWord wordCharacters, plain⟩

theorem plainFree {marked : Char → Bool} {text : List Char}
    (marksNoPlain : ∀ character, marked character → isPlain character = false)
    (plain : ∀ character ∈ text, isPlain character) : Free marked text := by
  intro character inside
  apply Bool.eq_false_iff.mpr
  intro isMarked
  have notPlain := marksNoPlain character isMarked
  rw [plain character inside] at notPlain
  cases notPlain

theorem plainWithout {mark : Char} {text : List Char} (notPlain : isPlain mark = false)
    (plain : ∀ character ∈ text, isPlain character) : Free (· == mark) text := by
  refine plainFree (fun character same => ?_) plain
  rw [beq_iff_eq.mp same]
  exact notPlain

theorem quoteNotPlain (character : Char) (mark : isQuote character) :
    isPlain character = false := by
  rcases Bool.or_eq_true_iff.mp mark with single | double
  · rw [beq_iff_eq.mp single]
    decide
  · rw [beq_iff_eq.mp double]
    decide

theorem blanksNoQuotes {blanks : List Char} (areBlank : ∀ character ∈ blanks, isBlank character) :
    Free isQuote blanks :=
  plainFree quoteNotPlain (plainBlanks areBlank)

theorem wordNoQuotes {word : List Char}
    (wordCharacters : ∀ character ∈ word, isWordCharacter character) : Free isQuote word :=
  plainFree quoteNotPlain (plainWord wordCharacters)

section

variable {head : List Char}

theorem Calling.noQuotes (calling : Calling head) : Free isQuote head := by
  obtain ⟨front, plain, rfl⟩ := calling
  exact freeAppend.mpr ⟨plainFree quoteNotPlain plain, by decide⟩

theorem Calling.without {mark : Char} (notPlain : isPlain mark = false)
    (outside : Free (· == mark) "require(".toList) (calling : Calling head) :
    Free (· == mark) head := by
  obtain ⟨front, plain, rfl⟩ := calling
  exact freeAppend.mpr ⟨plainWithout notPlain plain, outside⟩

/-- A head does not end with white space. -/
theorem notCallingFrom (front : List Char) : ¬ Calling (front ++ " from ".toList) := by
  rintro ⟨head, -, whole⟩
  have last := congrArg List.getLast? whole
  rw [List.getLast?_append, List.getLast?_append] at last
  cases last

end

/-- A replaced text and its replacement agree in what a quoted module that begins before them can
see of them: after the first quotation mark a closing parenthesis follows in the one text if it
follows in the other. A head does not end at the first mark of the replacement. -/
inductive Seam : List Char → List Char → Prop
  | between {lead leadBefore tail tailBefore : List Char} {mark markBefore : Char}
      (isMark : isQuote mark) (isMarkBefore : isQuote markBefore)
      (noQuotes : Free isQuote lead) (noQuotesBefore : Free isQuote leadBefore)
      (filledBefore : leadBefore ≠ []) (filled : tail ≠ [])
      (noClosing : lead.head? ≠ some ')')
      (closing : tail.head? = some ')' → tailBefore.head? = some ')')
      (noHead : ∀ kept, ¬ Calling (kept ++ lead)) :
      Seam (leadBefore ++ markBefore :: tailBefore) (lead ++ mark :: tail)

section

variable {part replaced kept rest : List Char}

theorem Closing.acrossSeam (seam : Seam part replaced) (behind : List Char)
    (closing : Closing (kept ++ (replaced ++ rest))) : Closing (kept ++ (part ++ behind)) := by
  obtain ⟨source, last, after, notEmpty, noQuotes, isLast, whole⟩ := closing
  cases seam with
  | @between lead leadBefore tail tailBefore mark markBefore isMark isMarkBefore leadFree
      leadBeforeFree filledBefore filled noClosing closes noHead =>
    rcases freeOrMarked isQuote kept with keptFree | ⟨front, first, others, frontFree, isFirst, rfl⟩
    · -- The module goes on to the first mark of the replacement.
      have regrouped : kept ++ lead ++ mark :: (tail ++ rest) = source ++ last :: ')' :: after := by
        rw [← whole]
        simp
      obtain ⟨rfl, rfl, tailClosing⟩ := sameFirstMarked (freeAppend.mpr ⟨keptFree, leadFree⟩)
        noQuotes isMark isLast regrouped
      obtain ⟨character, tail, rfl⟩ := List.exists_cons_of_ne_nil filled
      obtain ⟨rfl, -⟩ := List.cons_eq_cons.mp tailClosing
      obtain ⟨others, rfl⟩ := List.head?_eq_some_iff.mp (closes rfl)
      exact ⟨kept ++ leadBefore, markBefore, others ++ behind,
        List.append_ne_nil_of_right_ne_nil _ filledBefore,
        freeAppend.mpr ⟨keptFree, leadBeforeFree⟩, isMarkBefore, by simp⟩
    · -- The module ends before the replacement.
      rw [List.append_assoc, List.cons_append] at whole
      obtain ⟨rfl, rfl, afterMark⟩ := sameFirstMarked frontFree noQuotes isFirst isLast whole
      cases others with
      | nil =>
        cases lead with
        | nil =>
          obtain ⟨rfl, -⟩ := List.cons_eq_cons.mp afterMark
          cases isMark
        | cons character lead =>
          obtain ⟨rfl, -⟩ := List.cons_eq_cons.mp afterMark
          exact absurd rfl noClosing
      | cons character others =>
        obtain ⟨rfl, -⟩ := List.cons_eq_cons.mp afterMark
        exact ⟨front, first, others ++ (leadBefore ++ markBefore :: tailBefore ++ behind), notEmpty,
          noQuotes, isFirst, by simp⟩

/-- The head is what stands before the first quotation mark. -/
theorem Quoting.isHead {Head : List Char → Prop} (calling : ∀ {head}, Head head → Calling head)
    {lead : List Char} {mark : Char} (noQuotes : Free isQuote lead) (isMark : isQuote mark)
    (quoting : Quoting Head (lead ++ mark :: rest)) : Head lead := by
  obtain ⟨head, first, behind, isHead, isFirst, -, whole⟩ := quoting
  obtain ⟨rfl, -, -⟩ := sameFirstMarked noQuotes (calling isHead).noQuotes isMark isFirst whole
  exact isHead

/-- A quoted module that begins before a replacement also stood in the text before. -/
theorem Quoting.acrossSeam {Head : List Char → Prop} (calling : ∀ {head}, Head head → Calling head)
    (seam : Seam part replaced) (behind : List Char)
    (quoting : Quoting Head (kept ++ (replaced ++ rest))) :
    Quoting Head (kept ++ (part ++ behind)) := by
  rcases freeOrMarked isQuote kept with keptFree | ⟨front, first, others, frontFree, isFirst, rfl⟩
  · cases seam with
    | @between lead leadBefore tail tailBefore mark markBefore isMark isMarkBefore leadFree
        leadBeforeFree filledBefore filled noClosing closes noHead =>
      have regrouped : kept ++ (lead ++ mark :: tail ++ rest) =
          kept ++ lead ++ mark :: (tail ++ rest) := by simp
      rw [regrouped] at quoting
      exact absurd (calling (quoting.isHead calling (freeAppend.mpr ⟨keptFree, leadFree⟩) isMark))
        (noHead kept)
  · obtain ⟨head, mark, after, isHead, isMark, closing, whole⟩ := quoting
    rw [List.append_assoc, List.cons_append] at whole
    obtain ⟨rfl, rfl, rfl⟩ := sameFirstMarked frontFree (calling isHead).noQuotes isFirst isMark
      whole
    exact ⟨front, first, others ++ (part ++ behind), isHead, isFirst,
      closing.acrossSeam seam behind, by simp⟩

/-- A seam stays one behind texts without quotation marks. -/
theorem Seam.behind {front frontBefore : List Char} (seam : Seam part replaced)
    (noQuotes : Free isQuote front) (noQuotesBefore : Free isQuote frontBefore)
    (filled : front ≠ []) (noClosing : front.head? ≠ some ')') :
    Seam (frontBefore ++ part) (front ++ replaced) := by
  cases seam with
  | @between lead leadBefore tail tailBefore mark markBefore isMark isMarkBefore leadFree
      leadBeforeFree filledBefore tailFilled leadNoClosing closes noHead =>
    rw [← List.append_assoc, ← List.append_assoc]
    apply Seam.between isMark isMarkBefore (freeAppend.mpr ⟨noQuotes, leadFree⟩)
      (freeAppend.mpr ⟨noQuotesBefore, leadBeforeFree⟩)
      (List.append_ne_nil_of_right_ne_nil _ filledBefore) tailFilled
    · obtain ⟨first, front, rfl⟩ := List.exists_cons_of_ne_nil filled
      exact noClosing
    · exact closes
    · intro kept
      rw [← List.append_assoc]
      exact noHead (kept ++ front)

end

theorem inlineBlanksBlank {blanks : List Char}
    (areBlank : ∀ character ∈ blanks, isInlineBlank character) :
    ∀ character ∈ blanks, isBlank character := by
  intro character inside
  rcases Bool.or_eq_true_iff.mp (areBlank character inside) with space | tab
  · rw [beq_iff_eq.mp space]
    decide
  · rw [beq_iff_eq.mp tab]
    decide

/-- A module moves from the call behind the word `from`. -/
theorem callSeam {part source : List Char} (form : CallForm part source) :
    Seam part (" from ".toList ++ quoted source) := by
  obtain ⟨before, behind, argument, beforeBlank, behindBlank, ⟨first, last, isFirst, isLast,
    notEmpty, noQuotes, rfl⟩, rfl⟩ := form
  obtain ⟨character, source, rfl⟩ := List.exists_cons_of_ne_nil notEmpty
  have isHead : CallHead (before ++ '=' :: (behind ++ "require(".toList)) :=
    ⟨before, behind, beforeBlank, behindBlank, rfl⟩
  have seam : Seam (before ++ '=' :: (behind ++ "require(".toList) ++
      first :: (character :: source ++ [last, ')'])) (" from ".toList ++ '"' ::
        (character :: source ++ ['"'])) := by
    exact Seam.between (by decide) isFirst (by decide) isHead.calling.noQuotes (by simp) (by simp)
      (by decide) (by simp) notCallingFrom
  simpa [quoted] using seam

theorem constNoQuotes {blanks : List Char} (areBlank : ∀ character ∈ blanks, isBlank character) :
    Free isQuote ("const".toList ++ blanks) :=
  freeAppend.mpr ⟨by decide, blanksNoQuotes areBlank⟩

theorem singleSeam {part : List Char} {require : RequireImport} (form : SingleForm part require) :
    Seam part (singleDeclaration require) := by
  obtain ⟨blanks, call, -, areBlank, named, wordCharacters, callForm, rfl⟩ := form
  have bindingNoQuotes := wordNoQuotes wordCharacters
  have seam := (callSeam callForm).behind
    (freeAppend.mpr ⟨(by decide : Free isQuote "import ".toList), bindingNoQuotes⟩)
    (freeAppend.mpr ⟨constNoQuotes areBlank, bindingNoQuotes⟩) (by simp) (by simp)
  unfold singleDeclaration
  simpa only [List.append_assoc] using seam

/-- Behind the names the replacement goes on with the brace, as the constant does. -/
theorem bracedSeam {behind call source : List Char}
    (backBlank : ∀ character ∈ behind, isInlineBlank character) (form : CallForm call source) :
    Seam (behind ++ '\x7d' :: call) (" \x7d from ".toList ++ quoted source) := by
  have seam := (callSeam form).behind (by decide : Free isQuote " \x7d".toList)
    (freeAppend.mpr ⟨blanksNoQuotes (inlineBlanksBlank backBlank),
      (by decide : Free isQuote ['\x7d'])⟩) (by simp) (by simp)
  simpa using seam

theorem namedSeam {part : List Char} {require : RequireImport}
    (form : DestructuredForm part require) : Seam part (namedDeclaration require) := by
  obtain ⟨blanks, before, behind, call, -, areBlank, frontBlank, backBlank, -, -, callForm, rfl⟩ :=
    form
  have tailSeam := bracedSeam backBlank callForm
  have front : Free isQuote ("import \x7b ".toList) := by decide
  have frontBefore : Free isQuote ("const".toList ++ blanks ++ '\x7b' :: before) :=
    freeAppend.mpr ⟨constNoQuotes areBlank, List.forall_mem_cons.mpr
      ⟨rfl, blanksNoQuotes (inlineBlanksBlank frontBlank)⟩⟩
  rcases freeOrMarked isQuote require.binding with free |
    ⟨names, mark, others, free, isMark, whole⟩
  · have seam := tailSeam.behind (freeAppend.mpr ⟨front, free⟩)
      (freeAppend.mpr ⟨frontBefore, free⟩) (by simp) (by simp)
    unfold namedDeclaration
    simpa only [List.append_assoc, List.cons_append] using seam
  · -- The first quotation mark stands among the names, and a brace before it.
    have seam : Seam ("const".toList ++ blanks ++ '\x7b' :: before ++ names ++
        mark :: (others ++ (behind ++ '\x7d' :: call))) ("import \x7b ".toList ++ names ++
        mark :: (others ++ (" \x7d from ".toList ++ quoted require.source))) := by
      refine Seam.between isMark isMark (freeAppend.mpr ⟨front, free⟩)
        (freeAppend.mpr ⟨frontBefore, free⟩) (by simp) (by simp) (by simp) ?_ ?_
      · cases others with
        | nil => simp
        | cons character others => simp
      · intro kept calling
        have noBrace : Free (· == '\x7b') _ := calling.without (by decide) (by decide)
        cases noBrace '\x7b' (by simp)
    unfold namedDeclaration
    rw [whole]
    simpa only [List.append_assoc, List.cons_append] using seam

end LintRepair.RequireImport
