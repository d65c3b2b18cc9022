/-
This file shows that removals of unused declarations from one file compose: two repairs in a row
leave the file as one repair with the diagnostics of both.
-/

import LintRepair.Proofs.Fix.Removal
import LintRepair.Proofs.Repair.FixFile

namespace LintRepair.Run

/-- The text of a file and the answered diagnostics after a removal. -/
def removal (text : List Char) (diagnostics : List Diagnostic) : List Char × List Diagnostic :=
  let result := LineEdit.blankDeclaration.apply (Buffer.ofText text) diagnostics
  (result.1.contents, result.2)

theorem patchedRemoval (diagnostics : List Diagnostic) (text : List Char) :
    patched .unusedVariables diagnostics text = (removal text diagnostics).1 :=
  Patch.lineEditResult LineEdit.blankDeclarationSafe text diagnostics

theorem removalTwice (text : List Char) (first second : List Diagnostic) :
    (removal (removal text first).1 second).1 = (removal text (first ++ second)).1 ∧
      ((removal text first).2 ++ (removal (removal text first).1 second).2).Perm
        (removal text (first ++ second)).2 :=
  LineEdit.applyReloaded LineEdit.blankDeclarationSafe text first second

theorem removalSwapped (text : List Char) (first second : List Diagnostic) :
    (removal text (second ++ first)).1 = (removal text (first ++ second)).1 :=
  congrArg Buffer.contents (LineEdit.blankSwapped (Buffer.ofText text) first second).symm

/-- A removal answers nothing exactly if it leaves the text as it is. -/
theorem removal_eq_nil_iff (text : List Char) (diagnostics : List Diagnostic) :
    (removal text diagnostics).2 = [] ↔ (removal text diagnostics).1 = text :=
  LineEdit.applyFixed_eq_nil_iff LineEdit.blankDeclarationSafe text diagnostics

/-- A file that takes what both removals leave takes it behind the first one too. -/
theorem takesLater {files : FileTree} {location : Location} {text : List Char}
    (first second : List Diagnostic)
    (takes : files.Takes location text (removal text (first ++ second)).1) :
    files.Takes location (removal text first).1 (removal (removal text first).1 second).1 := by
  obtain ⟨sameText, answers⟩ := removalTwice text first second
  intro changed
  rw [sameText]
  refine takes fun unchanged => changed ((removal_eq_nil_iff _ _).mp ?_)
  rw [(removal_eq_nil_iff _ _).mpr unchanged, List.perm_nil, List.append_eq_nil_iff] at answers
  exact answers.2

/-- A removal in a readable file that takes the new text answers what the text tells, and leaves a
readable file that takes the same texts. -/
theorem fixFileRemoval {path : Path} {progress : Progress} {location : Location}
    {text : List Char}
    (readable : progress.files.readText path = .ok (location, String.ofList text))
    {diagnostics : List Diagnostic}
    (takes : progress.files.Takes location text (removal text diagnostics).1) :
    ∃ after, (fixFile .unusedVariables path diagnostics).run progress =
        (.ok (removal text diagnostics).2, after) ∧
      after.files.readText path =
        .ok (location, String.ofList (removal text diagnostics).1) ∧
      (∀ old new, progress.files.Takes location old new → after.files.Takes location old new) ∧
      ((removal text diagnostics).2 = [] → after = progress) := by
  have becomes : patched .unusedVariables diagnostics (String.ofList text).toList =
      (removal text diagnostics).1 := by
    rw [patchedRemoval, String.toList_ofList]
  have updates := filesAfterUpdates .unusedVariables diagnostics readable
  have readBack := readTextPatched .unusedVariables diagnostics readable
  have runs := fixFileReadable .unusedVariables diagnostics readable
    (by rwa [becomes, String.toList_ofList])
  rw [becomes] at readBack
  rw [String.toList_ofList] at runs readBack updates
  refine ⟨_, runs, readBack, fun old new both changed => ?_, fun nothing => ?_⟩
  · rw [updates.writeError]
    exact both changed
  · have unwritten : (Fixer.unusedVariables.patch text diagnostics).written = none := by
      show (if (removal text diagnostics).2.isEmpty then none else _) = none
      rw [nothing]
      rfl
    have unwarned : warningsOf path (Fixer.unusedVariables.patch text diagnostics) = [] := rfl
    simp only [filesAfter, unwritten, unwarned, List.append_nil]

/-- A removal for one list of diagnostics and then one for another leave the bytes that a single
removal for both lists leaves, in whichever order, and answer as many diagnostics. When all lines
of the second list are lines of the first, the second removal answers nothing and changes
nothing. The file has to take what each list leaves of its text, if that is a new text. -/
theorem removalsCompose {path : Path} {progress : Progress} {location : Location} {text : String}
    (readable : progress.files.readText path = .ok (location, text))
    (first second : List Diagnostic)
    (takes : ∀ chosen ∈ [first, second, first ++ second],
      progress.files.Takes location text.toList (removal text.toList chosen).1) :
    ∃ fixedFirst afterFirst fixedLater afterLater fixedBoth afterBoth,
      (fixFile .unusedVariables path first).run progress = (.ok fixedFirst, afterFirst) ∧
      (fixFile .unusedVariables path second).run afterFirst = (.ok fixedLater, afterLater) ∧
      (fixFile .unusedVariables path (first ++ second)).run progress =
        (.ok fixedBoth, afterBoth) ∧
      afterLater.files.bytesOf path = afterBoth.files.bytesOf path ∧
      fixedFirst.length + fixedLater.length = fixedBoth.length ∧
      (∃ fixedSecond afterSecond fixedSwapped afterSwapped,
        (fixFile .unusedVariables path second).run progress = (.ok fixedSecond, afterSecond) ∧
        (fixFile .unusedVariables path first).run afterSecond =
          (.ok fixedSwapped, afterSwapped) ∧
        afterSwapped.files.bytesOf path = afterLater.files.bytesOf path) ∧
      ((∀ diagnostic ∈ second, ∃ other ∈ first, other.line = diagnostic.line) →
        fixedLater = [] ∧ afterLater = afterFirst) := by
  obtain ⟨text, rfl⟩ : ∃ characters, text = String.ofList characters :=
    ⟨text.toList, (String.ofList_toList).symm⟩
  simp only [List.forall_mem_cons, String.toList_ofList] at takes
  obtain ⟨takesFirst, takesSecond, takesBoth, -⟩ := takes
  have takesOther : progress.files.Takes location text (removal text (second ++ first)).1 := by
    rwa [removalSwapped]
  obtain ⟨afterFirst, runFirst, readFirst, stillTakes, -⟩ := fixFileRemoval readable takesFirst
  obtain ⟨afterLater, runLater, readLater, -, laterIdle⟩ :=
    fixFileRemoval readFirst (stillTakes _ _ (takesLater first second takesBoth))
  obtain ⟨afterBoth, runBoth, readBoth, -⟩ := fixFileRemoval readable takesBoth
  obtain ⟨afterSecond, runSecond, readSecond, otherTakes, -⟩ := fixFileRemoval readable takesSecond
  obtain ⟨afterSwapped, runSwapped, readSwapped, -⟩ :=
    fixFileRemoval readSecond (otherTakes _ _ (takesLater second first takesOther))
  obtain ⟨laterText, answers⟩ := removalTwice text first second
  have otherText := (removalTwice text second first).1
  refine ⟨_, afterFirst, _, afterLater, _, afterBoth, runFirst, runLater, runBoth, ?_, ?_,
    ⟨_, afterSecond, _, afterSwapped, runSecond, runSwapped, ?_⟩, fun covered => ?_⟩
  · rw [FileTree.bytesOfReadable readLater, FileTree.bytesOfReadable readBoth, laterText]
  · rw [← List.length_append]
    exact answers.length_eq
  · rw [FileTree.bytesOfReadable readSwapped, FileTree.bytesOfReadable readLater, otherText,
      laterText, removalSwapped]
  · have nothing := LineEdit.blankAnsweredBefore text covered
    exact ⟨nothing, laterIdle nothing⟩

/-- A file whose unterminated last line and whose first line are declarations. -/
def unterminatedFiles : FileTree :=
  projectFiles [("a.ts", "let x = 1;\r\nuse(x);\nvar y = 2;")]

def lineReport (line : Nat) : Diagnostic :=
  ⟨⟨"a.ts"⟩, line, none, "no-unused-vars", "unused", none⟩

theorem unterminatedRemoved :
    unterminatedFiles.readText ⟨"a.ts"⟩ =
        .ok (["app", "a.ts"], "let x = 1;\r\nuse(x);\nvar y = 2;") ∧
      ∃ fixed between again after,
        (fixFile .unusedVariables ⟨"a.ts"⟩ [lineReport 3, lineReport 1]).run
          (.start unterminatedFiles) = (.ok fixed, between) ∧
        (fixFile .unusedVariables ⟨"a.ts"⟩ [lineReport 3]).run between = (.ok again, after) ∧
        again = [] ∧ after = between ∧
        after.files.bytesOf ⟨"a.ts"⟩ = .ok (encoded "\r\nuse(x);\n") := by
  have readable : (Progress.start unterminatedFiles).files.readText ⟨"a.ts"⟩ =
      .ok (["app", "a.ts"], "let x = 1;\r\nuse(x);\nvar y = 2;") := rfl
  obtain ⟨fixed, between, again, after, -, -, runs, runsAgain, -, -, -, -, idle⟩ :=
    removalsCompose readable [lineReport 3, lineReport 1] [lineReport 3] fun _ _ _ => rfl
  obtain ⟨nothing, same⟩ := idle (by simp)
  have bytes : ((fixFile .unusedVariables ⟨"a.ts"⟩ [lineReport 3, lineReport 1]).run
      (.start unterminatedFiles)).2.files.bytesOf ⟨"a.ts"⟩ =
        .ok (encoded "\r\nuse(x);\n") := by
    decide +kernel
  rw [runs] at bytes
  exact ⟨readable, fixed, between, again, after, runs, runsAgain, nothing, same,
    by rw [same]; exact bytes⟩

end LintRepair.Run
