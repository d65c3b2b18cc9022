/-
This file relates a text to the same text with awaited imports, and shows that no form of `require`
is left by the whole conversion.
-/

import LintRepair.Proofs.Fix.Rewritten

namespace LintRepair.RequireImport

open Text Unicode

/-- Two texts agree up to quotation marks, except that the second one awaits some of the imports. -/
inductive Awaits : List Char → List Char → Prop
  | done : Awaits [] []
  | kept {first second : Char} {source target : List Char} (alike : Alike first second)
      (rest : Awaits source target) : Awaits (first :: source) (second :: target)
  | awaited {source target : List Char} (rest : Awaits source target) :
      Awaits ("import(".toList ++ source) ("await import(".toList ++ target)

section

variable {source target : List Char}

theorem Awaits.behind (awaits : Awaits source target) (front : List Char) :
    Awaits (front ++ source) (front ++ target) := by
  induction front with
  | nil => exact awaits
  | cons character front inductionHypothesis => exact .kept (.inl rfl) inductionHypothesis

theorem importOpened : "import(".toList = "import".toList ++ ['('] := by
  decide

theorem awaitsRendered {front text : List Char} {cutPieces : List (Piece (List Char))}
    (scanned : Scanned dynamic front text cutPieces) :
    Awaits text (cutPieces.flatMap (Piece.rendered awaitedImport)) := by
  induction scanned with
  | done front => exact .done
  | @kept front text character rest nothing scanned inductionHypothesis =>
    exact .kept (.inl rfl) inductionHypothesis
  | @found front part behind module rest notEmpty matched scanned inductionHypothesis =>
    obtain ⟨_, ⟨first, last, isFirst, isLast, -, -, rfl⟩, rfl⟩ := takesDynamic.form matched
    have opened : Alike first '"' := .inr ⟨isFirst, by decide⟩
    have closed : Awaits (last :: ')' :: behind)
        ('"' :: ')' :: rest.flatMap (Piece.rendered awaitedImport)) :=
      .kept (.inr ⟨isLast, by decide⟩) (.kept (.inl rfl) inductionHypothesis)
    have replaced : awaitedImport module =
        "await import(".toList ++ '"' :: (module ++ ['"', ')']) := by
      unfold awaitedImport quoted
      simp only [List.append_assoc, List.cons_append, List.nil_append]
    have whole := Awaits.awaited (.kept opened (closed.behind module))
    rw [importOpened] at whole
    rw [List.flatMap_cons, Piece.rendered, replaced]
    simpa only [List.append_assoc, List.cons_append, List.nil_append] using whole

/-- The last replacement does nothing else than to await imports. -/
theorem awaitsReplaced (text : List Char) :
    Awaits text (replaceAll dynamic awaitedImport text) :=
  awaitsRendered (scannedPieces dynamicConsumes text)

/-- An awaited import as it is written. -/
def WritesAwait (before after : List Char) : Prop :=
  before = "import(".toList ∧ after = "await import(".toList

theorem Awaits.rewritten (awaits : Awaits source target) : Rewritten WritesAwait source target := by
  induction awaits with
  | done => exact .done
  | kept alike rest inductionHypothesis => exact .kept alike inductionHypothesis
  | awaited rest inductionHypothesis => exact .moved ⟨rfl, rfl⟩ inductionHypothesis

theorem awaitNeutral : Neutral WritesAwait := by
  refine ⟨?_, ?_, ?_⟩
  · rintro before after ⟨rfl, rfl⟩
    decide
  · rintro before after ⟨rfl, rfl⟩
    decide
  · rintro before after ⟨rfl, rfl⟩
    decide

/-- A head holds no import, since its only parenthesis opens the call of another function. -/
theorem Calling.noImport {head : List Char} (calling : Calling head) :
    ¬ "import(".toList <:+: head := by
  obtain ⟨front, plain, rfl⟩ := calling
  have noParenthesis : Free (· == '(') (front ++ "require".toList) :=
    freeAppend.mpr ⟨plainWithout (by decide) plain, by decide⟩
  have requireOpened : "require(".toList = "require".toList ++ ['('] := by decide
  rintro ⟨before, behind, whole⟩
  rw [importOpened, requireOpened, ← List.append_assoc front] at whole
  rcases List.eq_nil_or_concat behind with rfl | ⟨behind, last, rfl⟩
  · -- The parenthesis stands at the end, behind another letter.
    rw [List.append_nil, ← List.append_assoc before] at whole
    have letters := congrArg List.getLast? (List.append_inj_left' whole rfl)
    rw [List.getLast?_append, List.getLast?_append] at letters
    cases letters
  · rw [List.concat_eq_append, ← List.append_assoc] at whole
    have inside : '(' ∈ front ++ "require".toList := by
      rw [← List.append_inj_left' whole rfl]
      simp
    have unmarked := noParenthesis '(' inside
    cases unmarked

theorem WritesAwait.notIn {before after text : List Char} (writes : WritesAwait before after)
    (noImport : ¬ "import(".toList <:+: text) : ¬ after <:+: text := by
  obtain ⟨-, rfl⟩ := writes
  intro inside
  exact noImport (List.IsInfix.trans ⟨"await ".toList, [], by decide⟩ inside)

theorem Quoting.beforeAwait {Head : List Char → Prop} (calling : ∀ {head}, Head head → Calling head)
    (rewritten : Rewritten WritesAwait source target) (quoting : Quoting Head target) :
    Quoting Head source :=
  quoting.beforeRewriting awaitNeutral (fun isHead => (calling isHead).noQuotes)
    (fun writes isHead => writes.notIn (calling isHead).noImport) rewritten

theorem constNoImport {blanks : List Char} (areBlank : ∀ character ∈ blanks, isBlank character) :
    ¬ "import(".toList <:+: "const".toList ++ blanks := by
  intro inside
  have plain : ∀ character ∈ "const".toList ++ blanks, isPlain character :=
    List.forall_mem_append.mpr ⟨plainConst, plainBlanks areBlank⟩
  have parenthesis := plain '(' (inside.subset (by decide))
  revert parenthesis
  decide

theorem Bracing.beforeAwait (rewritten : Rewritten WritesAwait source target)
    (bracing : Bracing target) : Bracing source := by
  refine bracing.beforeRewriting awaitNeutral ?_
    (fun writes areBlank => writes.notIn (constNoImport areBlank))
    (fun writes isHead => writes.notIn isHead.calling.noImport) rewritten
  rintro before after ⟨rfl, rfl⟩
  decide

/-- A pattern that was absent stays so when imports are awaited, if it begins with a constant and
each of its matches was one before. -/
theorem Awaits.absent {Value : Type} {wanted : Pattern Value} {Reads : List Char → Prop}
    (contextFree : ContextFree wanted) (reads : ∀ {text}, wanted none text = none ↔ ¬ Reads text)
    (begins : ∀ {text}, Reads text → Begins text)
    (beforeAwait : ∀ {source target}, Rewritten WritesAwait source target → Reads target →
      Reads source)
    (awaits : Awaits source target) (absent : Absent wanted source) : Absent wanted target := by
  rw [contextFree.absent_iff] at absent ⊢
  intro behind suffix
  rw [reads]
  intro isRead
  rcases awaits.rewritten.suffix suffix with ⟨behindSource, inside, rewritten⟩ |
    ⟨before, after, middle, rest, ⟨-, rfl⟩, filled, inside, rfl⟩
  · exact reads.mp (absent behindSource inside) (beforeAwait rewritten isRead)
  · exact notInLiteral filled inside (by decide) rest (begins isRead)

end

end LintRepair.RequireImport

namespace LintRepair.ImportConversion

open Text Unicode RequireImport

/-- A text without a match is not converted. -/
theorem nothingReplaced {text : List Char} (noSingle : Absent single text)
    (noDestructured : Absent destructured text) (noDynamic : occurrences dynamic text = []) :
    (ofText text).replacements = 0 := by
  rw [absent_iff singleConsumes] at noSingle
  rw [absent_iff destructuredConsumes] at noDestructured
  have same : declared text = text := by
    rw [declared, replaceAllWithoutMatch noSingle, replaceAllWithoutMatch noDestructured]
  simp only [ofText, same, replaceAllWithoutMatch noSingle, noSingle, noDestructured, noDynamic,
    List.length_nil]

/-- No form of `require` survives the conversion of a text in which the modules of the replaced
ones hold no white space. If there was no dynamic import either, a second conversion changes
nothing. -/
theorem requireGone (text : List Char)
    (singleModules : ∀ require ∈ occurrences single text, Free isBlank require.source)
    (namedModules : ∀ require ∈ occurrences destructured (replaceAll single singleDeclaration text),
      Free isBlank require.source) :
    Absent single (ofText text).text ∧ Absent destructured (ofText text).text ∧
      (occurrences dynamic (declared text) = [] →
        (ofText (ofText text).text).replacements = 0 ∧
          (ofText (ofText text).text).text = (ofText text).text) := by
  have noSingle : Absent single (declared text) :=
    singleStaysGone (singleGone singleModules) namedModules
  have noDestructured : Absent destructured (declared text) := destructuredGone namedModules
  have awaits : Awaits (declared text) (ofText text).text := awaitsReplaced (declared text)
  have singleAbsent : Absent single (ofText text).text :=
    awaits.absent (fun _ _ => rfl) singleNone Quoting.begins
      (Quoting.beforeAwait SingleHead.calling) noSingle
  have destructuredAbsent : Absent destructured (ofText text).text :=
    awaits.absent (fun _ _ => rfl) destructuredNone Bracing.begins Bracing.beforeAwait
      noDestructured
  refine ⟨singleAbsent, destructuredAbsent, fun noDynamic => ?_⟩
  have unchanged : (ofText text).text = declared text :=
    replaceAllWithoutMatch noDynamic awaitedImport
  have nothing := nothingReplaced singleAbsent destructuredAbsent (by rw [unchanged, noDynamic])
  exact ⟨nothing, (text_eq_iff (ofText text).text).mpr nothing⟩

-- White space in a module would let it bring a whole constant up to its quotation mark.
example : (occurrences single
    (ofText "const a = require('const b = require(')x\")".toList).text).length = 1 := by
  decide

/-- A constant with one name stands among the names of another constant. -/
def nestedText : List Char :=
  "const \x7b const x = require('a') \x7d = require(\"b\")".toList

/-- Both constants become declarations, and none comes about where they meet. -/
theorem nestedRequireGone :
    (occurrences single nestedText).length = 1 ∧
      (occurrences destructured (replaceAll single singleDeclaration nestedText)).length = 1 ∧
      Absent single (ofText nestedText).text ∧ Absent destructured (ofText nestedText).text ∧
      (ofText (ofText nestedText).text).replacements = 0 ∧
      (ofText (ofText nestedText).text).text = (ofText nestedText).text := by
  have gone := requireGone nestedText (by decide) (by decide)
  exact ⟨by decide, by decide, gone.1, gone.2.1, gone.2.2 (by decide)⟩

end LintRepair.ImportConversion
