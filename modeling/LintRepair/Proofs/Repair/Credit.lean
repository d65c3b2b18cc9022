/-
This file bounds what a lint repair counts as resolved: neither fixer resolves a diagnostic of its
rule more often than it was reported, whichever paths lead to one file.
-/

import LintRepair.Proofs.Diagnostic.FileGroup
import LintRepair.Proofs.Repair.FixFile
import LintRepair.Repair.Lint

namespace LintRepair

/-- The diagnostics of two rules are parts of the report that do not overlap. -/
theorem Diagnostic.rulesApart {first second : String} (different : first ≠ second)
    (diagnostics : List Diagnostic) :
    (underRule first diagnostics ++ underRule second diagnostics).Subperm diagnostics := by
  have others : (underRule second diagnostics).Sublist
      (diagnostics.filter fun diagnostic => !(diagnostic.rule == first)) := by
    refine List.monotone_filter_right diagnostics fun diagnostic own => ?_
    simpa [eq_of_beq own] using different.symm
  have whole := List.filter_append_perm (fun diagnostic => diagnostic.rule == first) diagnostics
  exact ((List.Sublist.refl _).append others).subperm.trans whole.subperm

namespace Run

/-- A run succeeds exactly if its first part succeeds and the rest succeeds behind it. -/
theorem runBindOk_iff {First Second : Type} {action : Run First} {next : First → Run Second}
    {progress after : Progress} {result : Second} :
    (action >>= next).run progress = (.ok result, after) ↔
      ∃ value between, action.run progress = (.ok value, between) ∧
        (next value).run between = (.ok result, after) := by
  rw [runBind]
  obtain ⟨error | value, between⟩ := action.run progress
  · constructor
    · intro runs
      cases runs
    · rintro ⟨_, _, first, -⟩
      cases first
  · refine ⟨fun runs => ⟨value, between, rfl, runs⟩, ?_⟩
    rintro ⟨_, _, first, rest⟩
    cases first
    exact rest

theorem fixFileCredits {fixer : Fixer} {path : Path} {diagnostics fixed : List Diagnostic}
    {progress after : Progress}
    (runs : (fixFile fixer path diagnostics).run progress = (.ok fixed, after)) :
    fixed.Subperm diagnostics := by
  cases read : progress.files.readText path with
  | error error =>
    rw [fixFileUnreadable fixer diagnostics read] at runs
    cases runs
  | ok found =>
    obtain ⟨location, text⟩ := found
    by_cases takes : progress.files.Takes location text.toList
        (patched fixer diagnostics text.toList)
    · rw [fixFileReadable fixer diagnostics read takes] at runs
      cases runs
      exact fixer.patchSubperm text.toList diagnostics
    · obtain ⟨changed, error, refused⟩ := FileTree.notTakes_iff.mp takes
      rw [fixFileRefused fixer diagnostics read changed refused] at runs
      cases runs

/-- No group is resolved beyond its own diagnostics, though other groups may have changed its
file. -/
theorem fixGroupsCredits {fixer : Fixer} {groups : List FileGroup} {fixed : List Diagnostic}
    {progress after : Progress}
    (runs : (fixGroups fixer groups).run progress = (.ok fixed, after)) :
    fixed.Subperm (groups.flatMap FileGroup.diagnostics) := by
  induction groups generalizing fixed progress after with
  | nil =>
    cases runs
    exact List.Subperm.refl _
  | cons group groups inductionHypothesis =>
    simp only [fixGroups, runBindOk_iff, runTell, runPure] at runs
    obtain ⟨_, _, -, own, _, ownRuns, others, _, otherRuns, returned⟩ := runs
    cases returned
    exact (fixFileCredits ownRuns).append (inductionHypothesis otherRuns)

theorem fixRuleCredits {fixer : Fixer} {rule : String} {diagnostics fixed : List Diagnostic}
    {progress after : Progress}
    (runs : (fixRule fixer rule diagnostics).run progress = (.ok fixed, after)) :
    fixed.Subperm (Diagnostic.underRule rule diagnostics) :=
  (fixGroupsCredits runs).trans (FileGroup.ofDiagnosticsPartitions _).membersPerm.subperm

theorem runCollected {source : Collect} {progress after : Progress} {collected : List Diagnostic}
    (runs : (collect source).run progress = (.ok collected, after)) :
    source progress.files = (.ok collected, after.files) := by
  simp only [collect, runBind, runGet, runModify] at runs
  cases gives : source progress.files with
  | mk outcome files =>
    rw [gives] at runs
    cases outcome with
    | error error => cases runs
    | ok report =>
      cases runs
      rfl

/-- Whenever a lint repair succeeds, each fixer has resolved some of the diagnostics under its rule,
each as often as it was reported at most, and the summary counts the report and these diagnostics.
With two different rules no more diagnostics are resolved than were found. -/
theorem creditsBounded {settings : Settings} {source : Source} {progress after : Progress}
    {summary : LintSummary}
    (runs : (lint settings source).run progress = (.ok summary, after)) :
    ∃ found removed converted start between last,
      source.initial progress.files = (.ok found, start.files) ∧
      (fixRule .unusedVariables settings.unusedVariableRule found).run start =
        (.ok removed, between) ∧
      (fixRule .requireImports settings.requireImportRule found).run between =
        (.ok converted, last) ∧
      summary.found = found.length ∧ summary.fixed = removed.length + converted.length ∧
      removed.Subperm (Diagnostic.underRule settings.unusedVariableRule found) ∧
      converted.Subperm (Diagnostic.underRule settings.requireImportRule found) ∧
      summary.fixed ≤ (Diagnostic.underRule settings.unusedVariableRule found).length +
        (Diagnostic.underRule settings.requireImportRule found).length ∧
      (settings.unusedVariableRule ≠ settings.requireImportRule →
        (removed ++ converted).Subperm found ∧ summary.fixed ≤ summary.found) := by
  simp only [lint, runBindOk_iff, runTell, runPure] at runs
  obtain ⟨_, _, told, found, collected, initial, _, start, toldFound, removed, between, removes,
    converted, last, converts, _, _, -, remaining, _, -, _, _, -, returned⟩ := runs
  cases told
  cases toldFound
  cases returned
  have gives := runCollected initial
  have removedBound := fixRuleCredits removes
  have convertedBound := fixRuleCredits converts
  refine ⟨found, removed, converted, ⟨collected.files, collected.notices ++ [.found found.length],
      collected.warnings⟩, between, last, gives, removes, converts, rfl,
    rfl, removedBound, convertedBound,
    Nat.add_le_add removedBound.length_le convertedBound.length_le, fun different => ?_⟩
  have together : (removed ++ converted).Subperm found :=
    (removedBound.append convertedBound).trans (Diagnostic.rulesApart different found)
  exact ⟨together, List.length_append ▸ together.length_le⟩

/-- A file with a declaration and a `require` call, and a link to its directory. -/
def aliasedFiles : FileTree where
  entries := [(["app"], .directory),
    (["app", "a.ts"], .file (encoded "let x = 1;\nconst f = require('fs');\n")),
    (["lib"], .link ⟨"app"⟩)]
  workingDirectory := ["app"]

/-- Both lines are reported under two paths that lead to the one file. -/
def aliasedReport : List Diagnostic :=
  [⟨⟨"a.ts"⟩, 1, none, Settings.defaults.unusedVariableRule, "'x' is never used.", none⟩,
    ⟨⟨"/lib/a.ts"⟩, 1, none, Settings.defaults.unusedVariableRule, "'x' is never used.", none⟩,
    ⟨⟨"a.ts"⟩, 2, none, Settings.defaults.requireImportRule, "A require call.", none⟩,
    ⟨⟨"/lib/a.ts"⟩, 2, none, Settings.defaults.requireImportRule, "A require call.", none⟩]

/-- The second path finds the line blank and the call converted. -/
theorem aliasedCredited : ∃ after,
    (lint .defaults (.ofReports (.ok aliasedReport) (.ok []))).run (.start aliasedFiles) =
      (.ok ⟨4, 2, 0⟩, after) ∧
    Settings.defaults.unusedVariableRule ≠ Settings.defaults.requireImportRule ∧ 2 ≤ 4 := by
  have succeeds : ((lint .defaults (.ofReports (.ok aliasedReport) (.ok []))).run
      (.start aliasedFiles)).1 = .ok ⟨4, 2, 0⟩ := by
    decide +kernel
  have different : Settings.defaults.unusedVariableRule ≠ Settings.defaults.requireImportRule := by
    decide
  cases runs : (lint .defaults (.ofReports (.ok aliasedReport) (.ok []))).run
      (.start aliasedFiles) with
  | mk result after =>
    rw [runs] at succeeds
    subst succeeds
    obtain ⟨_, _, _, _, _, _, _, _, _, _, _, _, _, _, bounded⟩ := creditsBounded runs
    exact ⟨after, rfl, different, (bounded different).2⟩

end Run

end LintRepair
