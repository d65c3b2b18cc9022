/-
This file shows that a repair does not see the order of its report: all that counts is the order of
parameters that are renamed on one line.
-/

import LintRepair.Proofs.Diagnostic.Reordered
import LintRepair.Proofs.Repair.FixFile
import LintRepair.Repair.Lint
import LintRepair.Repair.Parameters

namespace LintRepair

namespace LineEdit

/-- An edit sees only the order of the diagnostics within a line. -/
theorem applyByLines (edit : LineEdit) (buffer : Buffer) {first second : List Diagnostic}
    (same : ∀ number, first.filter (fun diagnostic => diagnostic.line = number) =
      second.filter fun diagnostic => diagnostic.line = number) :
    edit.apply buffer first = edit.apply buffer second := by
  rw [apply, apply, Diagnostic.descendingByLines same]

section

variable {first second : List Diagnostic} (perm : first.Perm second)

include perm

/-- Lines are blanked whichever of their diagnostics comes first. -/
theorem blankBufferReordered (buffer : Buffer) :
    (blankDeclaration.apply buffer first).1 = (blankDeclaration.apply buffer second).1 := by
  rw [applyBuffer, applyBuffer]
  refine Buffer.mapTextsCongr fun number line _ => ?_
  have someGiven : first.filter (fun diagnostic => diagnostic.line = number) ≠ [] ↔
      second.filter (fun diagnostic => diagnostic.line = number) ≠ [] := by
    rw [← List.length_pos_iff, ← List.length_pos_iff, (perm.filter _).length_eq]
  rw [blankSteps, blankSteps]
  exact if_congr (and_congr_left fun _ => someGiven) rfl rfl

/-- On every line as many diagnostics are resolved. -/
theorem blankFixedReordered (buffer : Buffer) :
    (blankDeclaration.apply buffer first).2.length =
      (blankDeclaration.apply buffer second).2.length := by
  apply Diagnostic.lengthOfLines
  intro number
  rw [applyFixed blankDeclarationSafe, applyFixed blankDeclarationSafe]
  cases buffer.line? number with
  | none => rfl
  | some line =>
    simp only [Option.map_some, Option.getD_some, blankChanges]
    split
    · rw [List.length_take, List.length_take, (perm.filter _).length_eq]
    · rfl

end

end LineEdit

/-- Two patches write the same text, give the same warning, and resolve as many diagnostics. -/
structure Patch.Alike (first second : Patch) : Prop where
  written : first.written = second.written
  doubleAwaited : first.doubleAwaited = second.doubleAwaited
  fixed : first.fixed.length = second.fixed.length

theorem Fixer.patchReordered {fixer : Fixer} (named : fixer ≠ .unusedParameters)
    {first second : List Diagnostic} (perm : first.Perm second) (text : List Char) :
    (fixer.patch text first).Alike (fixer.patch text second) := by
  cases fixer with
  | unusedParameters => exact absurd rfl named
  | unusedVariables =>
    have sameLength := LineEdit.blankFixedReordered perm (Buffer.ofText text)
    have sameEmpty : (LineEdit.blankDeclaration.apply (Buffer.ofText text) first).2.isEmpty =
        (LineEdit.blankDeclaration.apply (Buffer.ofText text) second).2.isEmpty := by
      rw [Bool.eq_iff_iff, List.isEmpty_iff_length_eq_zero, List.isEmpty_iff_length_eq_zero,
        sameLength]
    refine ⟨?_, rfl, sameLength⟩
    simp only [patch, Patch.ofLineEdit, sameEmpty, LineEdit.blankBufferReordered perm]
  | requireImports =>
    simp only [patch, Patch.ofConversion]
    split
    · exact ⟨rfl, rfl, rfl⟩
    · exact ⟨rfl, rfl, perm.length_eq⟩

namespace Run

theorem runMap {First Second : Type} (change : First → Second) (action : Run First)
    (progress : Progress) : (change <$> action).run progress =
      match action.run progress with
      | (.ok value, after) => (.ok (change value), after)
      | (.error error, after) => (.error error, after) := by
  rw [map_eq_pure_bind, runBind]
  rfl

/-- Patches that are alike differ only in which diagnostics they resolve. -/
theorem fixFileAlike {fixer : Fixer} {first second : List Diagnostic}
    (alike : ∀ text, (fixer.patch text first).Alike (fixer.patch text second)) (path : Path) :
    List.length <$> fixFile fixer path first = List.length <$> fixFile fixer path second := by
  funext progress
  change (List.length <$> fixFile fixer path first).run progress =
    (List.length <$> fixFile fixer path second).run progress
  rw [runMap, runMap]
  cases read : progress.files.readText path with
  | error error => rw [fixFileUnreadable fixer first read, fixFileUnreadable fixer second read]
  | ok found =>
    obtain ⟨location, text⟩ := found
    have alike := alike text.toList
    have sameText : patched fixer first text.toList = patched fixer second text.toList := by
      rw [patched, patched, Patch.result, Patch.result, alike.written]
    by_cases takes : progress.files.Takes location text.toList
        (patched fixer first text.toList)
    · rw [fixFileReadable fixer first read takes,
        fixFileReadable fixer second read (sameText ▸ takes)]
      simp only [filesAfter, warningsOf, alike.written, alike.doubleAwaited, alike.fixed]
    · obtain ⟨changed, error, refused⟩ := FileTree.notTakes_iff.mp takes
      rw [fixFileRefused fixer first read changed refused]
      rw [sameText] at changed refused ⊢
      rw [fixFileRefused fixer second read changed refused]
      simp only [warningsOf, alike.doubleAwaited]

/-- Groups of the same paths with the same diagnostics in any order are answered alike. -/
theorem fixGroupsReordered {fixer : Fixer} (named : fixer ≠ .unusedParameters)
    (diagnostics : List Diagnostic) {groups : List FileGroup}
    (perm : ∀ group ∈ groups, group.diagnostics.Perm (group.among diagnostics).diagnostics) :
    List.length <$> fixGroups fixer groups =
      List.length <$> fixGroups fixer (groups.map (FileGroup.among diagnostics)) := by
  induction groups with
  | nil => rfl
  | cons group groups inductionHypothesis =>
    have first := fixFileAlike (fixer.patchReordered named (perm group List.mem_cons_self))
      group.path
    have rest := inductionHypothesis fun other inside => perm other (List.mem_cons_of_mem group inside)
    -- Only the numbers of resolved diagnostics are added up.
    have counted : ∀ group groups, List.length <$> fixGroups fixer (group :: groups) = do
        tell [.fixing fixer.name group.path]
        let fixed ← List.length <$> fixFile fixer group.path group.diagnostics
        let later ← List.length <$> fixGroups fixer groups
        return fixed + later := by
      intro group groups
      simp only [fixGroups, map_eq_pure_bind, bind_assoc, pure_bind, List.length_append]
    rw [List.map_cons, counted, counted, first, rest]
    rfl

/-- The diagnostics of one rule may stand in any order. -/
theorem fixRuleReordered {fixer : Fixer} (named : fixer ≠ .unusedParameters) (rule : String)
    {first second : List Diagnostic} (perm : first.Perm second)
    (spelled : Diagnostic.SpelledAlike first) :
    List.length <$> fixRule fixer rule first = List.length <$> fixRule fixer rule second := by
  have rulePerm : (Diagnostic.underRule rule first).Perm (Diagnostic.underRule rule second) :=
    perm.filter _
  have ruleSpelled : Diagnostic.SpelledAlike (Diagnostic.underRule rule first) :=
    spelled.subset fun diagnostic given => List.mem_of_mem_filter given
  rw [fixRule, fixRule, FileGroup.ofReordered rulePerm ruleSpelled]
  exact fixGroupsReordered named _ fun group inside =>
    FileGroup.amongPerm (FileGroup.ofDiagnosticsPartitions _) rulePerm inside

theorem collectReport (found : List Diagnostic) :
    collect (fun files => (.ok found, files)) = pure found := rfl

/-- A lint repair only counts what its fixers resolve. -/
theorem lintCounted (settings : Settings) (found : List Diagnostic) (recheck : Collect) :
    lint settings ⟨fun files => (.ok found, files), recheck⟩ = do
      tell [.banner]
      tell [.found found.length]
      let removed ← List.length <$> fixRule .unusedVariables settings.unusedVariableRule found
      let converted ← List.length <$> fixRule .requireImports settings.requireImportRule found
      tell [.rechecking]
      let remaining ← collect recheck
      tell [.remaining ⟨found.length, removed + converted, remaining.length⟩]
      return ⟨found.length, removed + converted, remaining.length⟩ := by
  simp only [lint, collectReport, map_eq_pure_bind, bind_assoc, pure_bind]

theorem lintReordered (settings : Settings) (recheck : Collect) {first second : List Diagnostic}
    (perm : first.Perm second) (spelled : Diagnostic.SpelledAlike first) :
    lint settings ⟨fun files => (.ok first, files), recheck⟩ =
      lint settings ⟨fun files => (.ok second, files), recheck⟩ := by
  have removed := fixRuleReordered (show Fixer.unusedVariables ≠ .unusedParameters by decide)
    settings.unusedVariableRule perm spelled
  have converted := fixRuleReordered (show Fixer.requireImports ≠ .unusedParameters by decide)
    settings.requireImportRule perm spelled
  rw [lintCounted, lintCounted, removed, converted, perm.length_eq]

/-- The same diagnostics, of which those of one line stand in the same order. -/
structure KeepsLines (first second : List Diagnostic) : Prop where
  perm : first.Perm second
  lines : ∀ path number,
    Diagnostic.atLine first path number = Diagnostic.atLine second path number

theorem KeepsLines.filter {first second : List Diagnostic} (keeps : KeepsLines first second)
    (chosen : Diagnostic → Bool) : KeepsLines (first.filter chosen) (second.filter chosen) := by
  refine ⟨keeps.perm.filter chosen, fun path number => ?_⟩
  have commutes : ∀ diagnostics : List Diagnostic,
      Diagnostic.atLine (diagnostics.filter chosen) path number =
        (Diagnostic.atLine diagnostics path number).filter chosen := by
    intro diagnostics
    rw [Diagnostic.atLine, Diagnostic.atLine, List.filter_filter, List.filter_filter]
    refine List.filter_congr fun diagnostic _ => Bool.and_comm _ _
  rw [commutes, commutes, keeps.lines]

theorem prefixGroupsReordered (diagnostics : List Diagnostic) {groups : List FileGroup}
    (lines : ∀ group ∈ groups, ∀ number,
      group.diagnostics.filter (fun diagnostic => diagnostic.line = number) =
        (group.among diagnostics).diagnostics.filter fun diagnostic => diagnostic.line = number) :
    prefixGroups groups = prefixGroups (groups.map (FileGroup.among diagnostics)) := by
  induction groups with
  | nil => rfl
  | cons group groups inductionHypothesis =>
    have rest := inductionHypothesis fun other inside =>
      lines other (List.mem_cons_of_mem group inside)
    have first : fixFile .unusedParameters group.path group.diagnostics =
        fixFile .unusedParameters group.path (group.among diagnostics).diagnostics := by
      have samePatch : ∀ text, Fixer.unusedParameters.patch text group.diagnostics =
          Fixer.unusedParameters.patch text (group.among diagnostics).diagnostics := by
        intro text
        simp only [Fixer.patch, Patch.ofLineEdit,
          LineEdit.applyByLines _ _ (lines group List.mem_cons_self)]
      simp only [fixFile, samePatch]
    rw [List.map_cons, prefixGroups, prefixGroups, first, rest]
    rfl

theorem parametersReordered {first second : List UInt8}
    (keeps : KeepsLines (CompilerOutput.diagnostics first) (CompilerOutput.diagnostics second))
    (spelled : Diagnostic.SpelledAlike (CompilerOutput.diagnostics first)) :
    parameters first = parameters second := by
  have sameGroups : ∀ files,
      prefixGroups (FileGroup.ofDiagnostics (existingUnread files first)) =
        prefixGroups (FileGroup.ofDiagnostics (existingUnread files second)) := by
    intro files
    have existing : KeepsLines (existingUnread files first) (existingUnread files second) :=
      keeps.filter _
    have existingSpelled : Diagnostic.SpelledAlike (existingUnread files first) :=
      spelled.subset fun diagnostic given => List.mem_of_mem_filter given
    have partitions := FileGroup.ofDiagnosticsPartitions (existingUnread files first)
    rw [FileGroup.ofReordered existing.perm existingSpelled]
    refine prefixGroupsReordered _ fun group inside number => ?_
    rw [partitions.members group inside, FileGroup.among, Diagnostic.filterPathLine,
      Diagnostic.filterPathLine, existing.lines]
  simp only [parameters, sameGroups]

/-- The order of a report decides nothing: not the result or the error, nor what is told and warned
of, nor the files. For the parameter repair only the order within a line of a file has to stay. -/
theorem orderIrrelevant (settings : Settings) (recheck : Collect) (files : FileTree) :
    (∀ first second : List Diagnostic, first.Perm second → Diagnostic.SpelledAlike first →
      (lint settings ⟨fun tree => (.ok first, tree), recheck⟩).run (.start files) =
        (lint settings ⟨fun tree => (.ok second, tree), recheck⟩).run (.start files)) ∧
    ∀ first second : List UInt8,
      KeepsLines (CompilerOutput.diagnostics first) (CompilerOutput.diagnostics second) →
      Diagnostic.SpelledAlike (CompilerOutput.diagnostics first) →
      (parameters first).run (.start files) = (parameters second).run (.start files) :=
  ⟨fun _ _ perm spelled => congrArg (·.run (.start files))
      (lintReordered settings recheck perm spelled),
    fun _ _ keeps spelled => congrArg (·.run (.start files)) (parametersReordered keeps spelled)⟩

/-- Two diagnostics of one line, and one of a file that cannot be read. -/
def shuffledReport : List Diagnostic :=
  [⟨⟨"b.ts"⟩, 1, none, Settings.defaults.requireImportRule, "A require call.", none⟩,
    ⟨⟨"a.ts"⟩, 1, some 5, Settings.defaults.unusedVariableRule, "'x' is never used.", none⟩,
    ⟨⟨"a.ts"⟩, 1, some 9, Settings.defaults.unusedVariableRule, "'x' is never used.", none⟩]

def shuffledOutput : List UInt8 :=
  encoded "b.ts(1,1): error TS6133: 'y' is declared but its value is never read.\n" ++
    encoded "a.ts(1,5): error TS6133: 'x' is declared but its value is never read.\n"

def sortedOutput : List UInt8 :=
  encoded "a.ts(1,5): error TS6133: 'x' is declared but its value is never read.\n" ++
    encoded "b.ts(1,1): error TS6133: 'y' is declared but its value is never read.\n"

/-- Diagnostics of different lines may change places. -/
theorem swapKeepsLines {left right : Diagnostic} (apart : left.place ≠ right.place) :
    KeepsLines [left, right] [right, left] := by
  refine ⟨List.Perm.swap _ _ _, fun path number => ?_⟩
  by_cases first : left.place = (path.components, number)
  · have second : right.place ≠ (path.components, number) := fun same =>
      apart (first.trans same.symm)
    simp [Diagnostic.atLine, first, second]
  · simp [Diagnostic.atLine, first, List.filter_cons]

theorem shuffledAlike :
    (shuffledReport.Perm shuffledReport.reverse ∧ Diagnostic.SpelledAlike shuffledReport ∧
      (lint .defaults (.ofReports (.ok shuffledReport) (.ok []))).run (.start declarationFiles) =
        (lint .defaults (.ofReports (.ok shuffledReport.reverse) (.ok []))).run
          (.start declarationFiles)) ∧
    (parameters shuffledOutput).run (.start declarationFiles) =
      (parameters sortedOutput).run (.start declarationFiles) := by
  obtain ⟨lints, prefixes⟩ := orderIrrelevant .defaults (fun tree => (.ok [], tree)) declarationFiles
  have perm : shuffledReport.Perm shuffledReport.reverse := (List.reverse_perm _).symm
  have spelled : Diagnostic.SpelledAlike shuffledReport := by
    unfold Diagnostic.SpelledAlike
    decide +kernel
  obtain ⟨left, right, apart, shuffled, sorted⟩ : ∃ left right : Diagnostic,
      left.place ≠ right.place ∧ CompilerOutput.diagnostics shuffledOutput = [left, right] ∧
        CompilerOutput.diagnostics sortedOutput = [right, left] :=
    ⟨⟨⟨"b.ts"⟩, 1, some 1, "unused parameter",
        "TS6133: 'y' is declared but its value is never read.", some "y"⟩,
      ⟨⟨"a.ts"⟩, 1, some 5, "unused parameter",
        "TS6133: 'x' is declared but its value is never read.", some "x"⟩,
      by decide +kernel, by decide +kernel, by decide +kernel⟩
  refine ⟨⟨perm, spelled, lints _ _ perm spelled⟩, prefixes _ _ ?_ ?_⟩
  · rw [shuffled, sorted]
    exact swapKeepsLines apart
  · unfold Diagnostic.SpelledAlike
    decide +kernel

end Run

end LintRepair
