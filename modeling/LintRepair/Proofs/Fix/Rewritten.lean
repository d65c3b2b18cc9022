/-
This file relates a text to the same text with some of its parts rewritten. A form of `require` or a
dynamic import that begins at a kept character of the second text also begins there in the first.
-/

import LintRepair.Proofs.Fix.Declared

namespace LintRepair.RequireImport

open Text Unicode

/-- A replacement may write another quotation mark. -/
def Alike (first second : Char) : Prop :=
  first = second ∨ isQuote first ∧ isQuote second

theorem alikeQuotes {first second : Char} (alike : Alike first second) :
    isQuote first = isQuote second := by
  rcases alike with rfl | ⟨isFirst, isSecond⟩
  · rfl
  · rw [isFirst, isSecond]

/-- Only quotation marks are rewritten. -/
theorem alikeOthers {first second other : Char} (noQuote : isQuote other = false)
    (alike : Alike first second) : (first == other) = (second == other) := by
  have differs : ∀ mark, isQuote mark → (mark == other) = false := by
    intro mark isMark
    apply beq_false_of_ne
    rintro rfl
    rw [noQuote] at isMark
    cases isMark
  rcases alike with rfl | ⟨isFirst, isSecond⟩
  · rfl
  · rw [differs first isFirst, differs second isSecond]

/-- Two texts agree up to quotation marks, except that some parts are written anew and that the
second text lacks the parenthesis behind some of the marks. -/
inductive Rewritten (Writes : List Char → List Char → Prop) : List Char → List Char → Prop
  | done : Rewritten Writes [] []
  | kept {first second : Char} {source target : List Char} (alike : Alike first second)
      (rest : Rewritten Writes source target) :
      Rewritten Writes (first :: source) (second :: target)
  | closed {mark : Char} {source target : List Char} (isMark : isQuote mark)
      (rest : Rewritten Writes source target) :
      Rewritten Writes (mark :: ')' :: source) ('"' :: target)
  | moved {before after source target : List Char} (writes : Writes before after)
      (rest : Rewritten Writes source target) :
      Rewritten Writes (before ++ source) (after ++ target)

/-- A quoted module begins and ends outside the parts that are written anew. -/
structure Neutral (Writes : List Char → List Char → Prop) : Prop where
  filled : ∀ {before after}, Writes before after → before ≠ [] ∧ after ≠ []
  noQuotes : ∀ {before after}, Writes before after → Free isQuote before ∧ Free isQuote after
  noClosing : ∀ {before after}, Writes before after → ')' ∉ after

section

variable {Writes : List Char → List Char → Prop} {source target : List Char}

theorem Rewritten.behind (rewritten : Rewritten Writes source target) (front : List Char) :
    Rewritten Writes (front ++ source) (front ++ target) := by
  induction front with
  | nil => exact rewritten
  | cons character front inductionHypothesis => exact .kept (.inl rfl) inductionHypothesis

theorem Rewritten.quoted (rewritten : Rewritten Writes source target) {first last : Char}
    (isFirst : isQuote first) (isLast : isQuote last) (module : List Char) :
    Rewritten Writes (first :: (module ++ last :: ')' :: source))
      ('"' :: (module ++ '"' :: target)) :=
  .kept (.inr ⟨isFirst, by decide⟩) ((Rewritten.closed isLast rewritten).behind module)

/-- A text is rewritten by its replacements. -/
theorem rewrittenReplaced {Value : Type} {pattern : Pattern Value}
    {Form : List Char → Value → Prop} {replacement : Value → List Char}
    (consumes : Consumes pattern) (takes : Takes pattern Form)
    (writes : ∀ {part value}, Form part value → ∀ {source target},
      Rewritten Writes source target →
        Rewritten Writes (part ++ source) (replacement value ++ target)) (text : List Char) :
    Rewritten Writes text (replaceAll pattern replacement text) := by
  have scans : ∀ {front text : List Char} {cutPieces : List (Piece Value)},
      Scanned pattern front text cutPieces →
        Rewritten Writes text (cutPieces.flatMap (Piece.rendered replacement)) := by
    intro front text cutPieces scanned
    induction scanned with
    | done front => exact .done
    | kept nothing scanned inductionHypothesis => exact .kept (.inl rfl) inductionHypothesis
    | found notEmpty matched scanned inductionHypothesis =>
      exact writes (takes.form matched) inductionHypothesis
  exact scans (scannedPieces consumes text)

/-- A place of the second text belongs to one of the first, or lies where a part is written anew. -/
theorem Rewritten.suffix (rewritten : Rewritten Writes source target) {behind : List Char}
    (suffix : behind <:+ target) :
    (∃ behindSource, behindSource <:+ source ∧ Rewritten Writes behindSource behind) ∨
      ∃ before after middle rest, Writes before after ∧ middle ≠ [] ∧ middle <:+ after ∧
        behind = middle ++ rest := by
  induction rewritten with
  | done =>
    exact .inl ⟨[], List.suffix_refl _, by rw [List.suffix_nil.mp suffix]; exact .done⟩
  | @kept first second source target alike rest inductionHypothesis =>
    rcases List.suffix_cons_iff.mp suffix with rfl | later
    · exact .inl ⟨first :: source, List.suffix_refl _, .kept alike rest⟩
    · exact (inductionHypothesis later).imp_left fun ⟨behindSource, inside, rewritten⟩ =>
        ⟨behindSource, inside.trans (List.suffix_cons _ _), rewritten⟩
  | @closed mark source target isMark rest inductionHypothesis =>
    rcases List.suffix_cons_iff.mp suffix with rfl | later
    · exact .inl ⟨mark :: ')' :: source, List.suffix_refl _, .closed isMark rest⟩
    · exact (inductionHypothesis later).imp_left fun ⟨behindSource, inside, rewritten⟩ =>
        ⟨behindSource, inside.trans (List.suffix_append [mark, ')'] source), rewritten⟩
  | @moved before after source target writes rest inductionHypothesis =>
    rcases suffixOfAppend suffix with ⟨middle, filled, isMiddle, rfl⟩ | later
    · exact .inr ⟨before, after, middle, target, writes, filled, isMiddle, rfl⟩
    · exact (inductionHypothesis later).imp_left fun ⟨behindSource, inside, rewritten⟩ =>
        ⟨behindSource, inside.trans (List.suffix_append _ _), rewritten⟩

/-- A text without quotation marks and parts that are written anew is the same. -/
theorem Rewritten.same (rewritten : Rewritten Writes source target)
    (noQuotes : Free isQuote target)
    (noPart : ∀ {before after}, Writes before after → ¬ after <:+: target) : source = target := by
  induction rewritten with
  | done => rfl
  | @kept first second source target alike rest inductionHypothesis =>
    obtain ⟨secondNoQuote, restNoQuotes⟩ := List.forall_mem_cons.mp noQuotes
    have sameRest := inductionHypothesis restNoQuotes fun writes inside =>
      noPart writes (List.infix_cons inside)
    rcases alike with rfl | ⟨-, isSecond⟩
    · rw [sameRest]
    · rw [secondNoQuote] at isSecond
      cases isSecond
  | closed => exact absurd (noQuotes '"' List.mem_cons_self) (by decide)
  | @moved before after source target writes =>
    exact absurd (List.prefix_append after target).isInfix (noPart writes)

/-- A mark stands behind a text that does not hold it. -/
theorem markBehind {middle rest lead behind : List Char} {mark : Char} (outside : mark ∉ middle)
    (whole : middle ++ rest = lead ++ mark :: behind) :
    ∃ between, lead = middle ++ between ∧ rest = between ++ mark :: behind := by
  rcases List.append_eq_append_iff.mp whole with ⟨between, rfl, same⟩ | ⟨others, same, othersEq⟩
  · exact ⟨between, rfl, same⟩
  · cases others with
    | nil => exact ⟨[], by rw [same, List.append_nil, List.append_nil], othersEq.symm⟩
    | cons character others =>
      obtain ⟨rfl, -⟩ := List.cons_eq_cons.mp othersEq
      exact absurd (by rw [same]; simp) outside

/-- A character that no part brings or takes cuts both texts at places that belong to each other. -/
theorem Rewritten.split {marked : Char → Bool}
    (alikeMarked : ∀ {first second}, Alike first second → marked first = marked second)
    (closingUnmarked : marked ')' = false)
    (unmarked : ∀ {before after}, Writes before after → Free marked before ∧ Free marked after)
    (rewritten : Rewritten Writes source target) {front behind : List Char} {mark : Char}
    (whole : target = front ++ mark :: behind) (noMark : Free marked front) (isMark : marked mark) :
    ∃ frontSource markSource behindSource rest,
      source = frontSource ++ markSource :: behindSource ∧ Free marked frontSource ∧
        marked markSource ∧ Rewritten Writes frontSource front ∧ Rewritten Writes rest behind ∧
          (behindSource = rest ∨ isQuote markSource ∧ behindSource = ')' :: rest) := by
  induction rewritten generalizing front with
  | done => simp at whole
  | @kept first second source target alike rest inductionHypothesis =>
    cases front with
    | nil =>
      obtain ⟨rfl, rfl⟩ := List.cons_eq_cons.mp whole
      exact ⟨[], first, source, source, rfl, by simp [Free], by rwa [alikeMarked alike], .done,
        rest, .inl rfl⟩
    | cons character front =>
      obtain ⟨rfl, later⟩ := List.cons_eq_cons.mp whole
      obtain ⟨unmarkedSecond, noMark⟩ := List.forall_mem_cons.mp noMark
      obtain ⟨frontSource, markSource, behindSource, others, rfl, noMarkSource, isMarkSource,
        rewrittenFront, rewrittenBehind⟩ := inductionHypothesis later noMark
      have unmarkedFirst : marked first = false := by rwa [alikeMarked alike]
      exact ⟨first :: frontSource, markSource, behindSource, others, rfl,
        List.forall_mem_cons.mpr ⟨unmarkedFirst, noMarkSource⟩, isMarkSource,
        .kept alike rewrittenFront, rewrittenBehind⟩
  | @closed first source target isFirst rest inductionHypothesis =>
    have sameMarked : marked first = marked '"' := alikeMarked (.inr ⟨isFirst, by decide⟩)
    cases front with
    | nil =>
      obtain ⟨rfl, rfl⟩ := List.cons_eq_cons.mp whole
      exact ⟨[], first, ')' :: source, source, rfl, by simp [Free], by rwa [sameMarked], .done,
        rest, .inr ⟨isFirst, rfl⟩⟩
    | cons character front =>
      obtain ⟨rfl, later⟩ := List.cons_eq_cons.mp whole
      obtain ⟨unmarkedQuote, noMark⟩ := List.forall_mem_cons.mp noMark
      obtain ⟨frontSource, markSource, behindSource, others, rfl, noMarkSource, isMarkSource,
        rewrittenFront, rewrittenBehind⟩ := inductionHypothesis later noMark
      have unmarkedFirst : marked first = false := by rwa [sameMarked]
      exact ⟨first :: ')' :: frontSource, markSource, behindSource, others, rfl,
        List.forall_mem_cons.mpr ⟨unmarkedFirst,
          List.forall_mem_cons.mpr ⟨closingUnmarked, noMarkSource⟩⟩,
        isMarkSource, .closed isFirst rewrittenFront, rewrittenBehind⟩
  | @moved before after source target writes rest inductionHypothesis =>
    obtain ⟨beforeUnmarked, afterUnmarked⟩ := unmarked writes
    have outside : mark ∉ after := by
      intro inside
      rw [afterUnmarked mark inside] at isMark
      cases isMark
    obtain ⟨front, rfl, later⟩ := markBehind outside whole
    obtain ⟨frontSource, markSource, behindSource, others, rfl, noMarkSource, isMarkSource,
      rewrittenFront, rewrittenBehind⟩ := inductionHypothesis later (freeAppend.mp noMark).2
    exact ⟨before ++ frontSource, markSource, behindSource, others, by simp,
      freeAppend.mpr ⟨beforeUnmarked, noMarkSource⟩, isMarkSource, .moved writes rewrittenFront,
      rewrittenBehind⟩

section

variable (neutral : Neutral Writes)

include neutral

theorem Rewritten.filled (rewritten : Rewritten Writes source target)
    (targetFilled : target ≠ []) : source ≠ [] := by
  cases rewritten with
  | done => exact targetFilled
  | kept => simp
  | closed => simp
  | moved writes => exact List.append_ne_nil_of_left_ne_nil (neutral.filled writes).1 _

theorem Rewritten.parenthesis (rewritten : Rewritten Writes source target) {behind : List Char}
    (whole : target = ')' :: behind) : ∃ behindSource, source = ')' :: behindSource := by
  cases rewritten with
  | done => cases whole
  | @kept first second source target alike rest =>
    obtain ⟨rfl, -⟩ := List.cons_eq_cons.mp whole
    rcases alike with rfl | ⟨-, isSecond⟩
    · exact ⟨source, rfl⟩
    · cases isSecond
  | closed => simp at whole
  | @moved before after source target writes =>
    obtain ⟨first, others, rfl⟩ := List.exists_cons_of_ne_nil (neutral.filled writes).2
    obtain ⟨rfl, -⟩ := List.cons_eq_cons.mp whole
    exact absurd List.mem_cons_self (neutral.noClosing writes)

theorem Closing.beforeRewriting (rewritten : Rewritten Writes source target)
    (closing : Closing target) : Closing source := by
  obtain ⟨module, last, behind, notEmpty, noQuotes, isLast, whole⟩ := closing
  obtain ⟨moduleSource, lastSource, behindSource, rest, rfl, noQuotesSource, isLastSource,
    rewrittenModule, rewrittenBehind, gap⟩ :=
      rewritten.split alikeQuotes (by decide) neutral.noQuotes whole noQuotes isLast
  obtain ⟨others, closed⟩ : ∃ others, behindSource = ')' :: others := by
    rcases gap with rfl | ⟨-, rfl⟩
    · exact rewrittenBehind.parenthesis neutral rfl
    · exact ⟨rest, rfl⟩
  exact ⟨moduleSource, lastSource, others, rewrittenModule.filled neutral notEmpty, noQuotesSource,
    isLastSource, by rw [closed]⟩

omit neutral in
theorem Closing.cons {character : Char} (noQuote : isQuote character = false) {text : List Char}
    (closing : Closing text) : Closing (character :: text) := by
  obtain ⟨module, last, behind, -, noQuotes, isLast, rfl⟩ := closing
  exact ⟨character :: module, last, behind, List.cons_ne_nil _ _,
    List.forall_mem_cons.mpr ⟨noQuote, noQuotes⟩, isLast, rfl⟩

theorem Quoting.beforeRewriting {Head : List Char → Prop}
    (noQuotes : ∀ {head}, Head head → Free isQuote head)
    (noPart : ∀ {before after head}, Writes before after → Head head → ¬ after <:+: head)
    (rewritten : Rewritten Writes source target) (quoting : Quoting Head target) :
    Quoting Head source := by
  obtain ⟨head, first, behind, isHead, isFirst, closing, whole⟩ := quoting
  obtain ⟨headSource, firstSource, behindSource, rest, rfl, -, isFirstSource, rewrittenHead,
    rewrittenBehind, gap⟩ := rewritten.split alikeQuotes (by decide) neutral.noQuotes whole
      (noQuotes isHead) isFirst
  obtain rfl := rewrittenHead.same (noQuotes isHead) fun writes => noPart writes isHead
  have closingSource : Closing behindSource := by
    rcases gap with rfl | ⟨-, rfl⟩
    · exact closing.beforeRewriting neutral rewrittenBehind
    · exact (closing.beforeRewriting neutral rewrittenBehind).cons (by decide)
  exact ⟨headSource, firstSource, behindSource, isHead, isFirstSource, closingSource, rfl⟩

/-- The braces of a constant are not written anew. -/
theorem Bracing.beforeRewriting
    (noBraces : ∀ {before after}, Writes before after → ∀ brace ∈ ['\x7b', '\x7d'],
      Free (· == brace) before ∧ Free (· == brace) after)
    (noConst : ∀ {before after blanks}, Writes before after →
      (∀ character ∈ blanks, isBlank character) → ¬ after <:+: "const".toList ++ blanks)
    (noCall : ∀ {before after head}, Writes before after → CallHead head → ¬ after <:+: head)
    (rewritten : Rewritten Writes source target) (bracing : Bracing target) : Bracing source := by
  obtain ⟨blanks, names, behind, notEmpty, areBlank, filled, noBrace, quoting, whole⟩ := bracing
  have plain : ∀ character ∈ "const".toList ++ blanks, isPlain character :=
    List.forall_mem_append.mpr ⟨plainConst, plainBlanks areBlank⟩
  rw [← List.append_assoc] at whole
  obtain ⟨front, brace, behindBrace, rest, rfl, -, isBrace, rewrittenFront, rewrittenRest, gap⟩ :=
    rewritten.split (alikeOthers (by decide : isQuote '\x7b' = false)) (by decide)
      (fun writes => noBraces writes '\x7b' (by simp)) whole (plainWithout (by decide) plain) rfl
  obtain rfl := rewrittenFront.same (constNoQuotes areBlank) fun writes => noConst writes areBlank
  obtain rfl := beq_iff_eq.mp isBrace
  obtain rfl : behindBrace = rest := gap.resolve_right fun ⟨isMark, _⟩ => by cases isMark
  obtain ⟨namesSource, closingBrace, behindSource, rest, rfl, noBraceSource, isClosingBrace,
    rewrittenNames, rewrittenBehind, gap⟩ :=
      rewrittenRest.split (alikeOthers (by decide : isQuote '\x7d' = false)) (by decide)
        (fun writes => noBraces writes '\x7d' (by simp)) rfl noBrace rfl
  obtain rfl := beq_iff_eq.mp isClosingBrace
  obtain rfl : behindSource = rest := gap.resolve_right fun ⟨isMark, _⟩ => by cases isMark
  have quotingSource : Quoting CallHead behindSource :=
    quoting.beforeRewriting neutral (fun isHead => isHead.calling.noQuotes) noCall rewrittenBehind
  exact ⟨blanks, namesSource, behindSource, notEmpty, areBlank,
    rewrittenNames.filled neutral filled, noBraceSource, quotingSource, by simp⟩

end

end

end LintRepair.RequireImport
