/-
This file describes the whole lint repair when nothing goes wrong: what becomes of every file, and
what the summary counts.
-/

import LintRepair.Proofs.Repair.Separate
import Mathlib.Data.List.Dedup

namespace LintRepair

namespace Run

/-- The diagnostics that one of the two fixers answers. -/
def flagged (settings : Settings) (found : List Diagnostic) : List Diagnostic :=
  found.filter fun diagnostic =>
    diagnostic.rule = settings.unusedVariableRule ∨ diagnostic.rule = settings.requireImportRule

/-- The text without the removable lines for which an unused declaration was found. All lines keep
their endings. -/
def blanked (settings : Settings) (found : List Diagnostic) (path : Path) (text : List Char) :
    List Char :=
  ((Buffer.ofText text).mapTexts fun number line =>
    if (∃ diagnostic ∈ found, diagnostic.rule = settings.unusedVariableRule ∧
        diagnostic.file.components = path.components ∧ diagnostic.line = number) ∧
      Declaration.isRemovable line then [] else line).contents

/-- The text with the removable lines blanked and, if a `require` call was found, converted. -/
def repaired (settings : Settings) (found : List Diagnostic) (path : Path) (text : List Char) :
    List Char :=
  let kept := blanked settings found path text
  if ∃ diagnostic ∈ found, diagnostic.rule = settings.requireImportRule ∧
      diagnostic.file.components = path.components then (ImportConversion.ofText kept).text
  else kept

/-- Whether the line of a diagnostic is a complete declaration. -/
def removable (files : FileTree) (diagnostic : Diagnostic) : Bool :=
  ((Buffer.ofText (files.textOf diagnostic.file)).line? diagnostic.line).any
    Declaration.isRemovable

/-- The lines that are blanked, each counted once. -/
def blankedLines (settings : Settings) (files : FileTree) (found : List Diagnostic) :
    List (List Path.Component × Nat) :=
  ((found.filter fun diagnostic => diagnostic.rule = settings.unusedVariableRule ∧
    removable files diagnostic).map Diagnostic.place).dedup

/-- The diagnostics of `require` calls in the files that the conversion changes. -/
def converted (settings : Settings) (files : FileTree) (found : List Diagnostic) :
    List Diagnostic :=
  found.filter fun diagnostic => diagnostic.rule = settings.requireImportRule ∧
    (ImportConversion.ofText
        (blanked settings found diagnostic.file (files.textOf diagnostic.file))).text ≠
      blanked settings found diagnostic.file (files.textOf diagnostic.file)

theorem filterUnderRule (rule : String) (diagnostics : List Diagnostic)
    (chosen : Diagnostic → Bool) : (Diagnostic.underRule rule diagnostics).filter chosen =
      diagnostics.filter fun diagnostic => diagnostic.rule = rule ∧ chosen diagnostic := by
  rw [Diagnostic.underRule, List.filter_filter]
  refine List.filter_congr fun diagnostic _ => ?_
  simp [Bool.and_comm, beq_eq_decide]

theorem answeredBlanked (settings : Settings) (found : List Diagnostic) (path : Path)
    (text : List Char) :
    answered .unusedVariables (Diagnostic.underRule settings.unusedVariableRule found) path text =
      blanked settings found path text := by
  rw [answeredLineEdit LineEdit.blankDeclarationSafe rfl, blanked]
  refine congrArg Buffer.contents (Buffer.mapTextsCongr fun number line _ => ?_)
  rw [LineEdit.blankSteps]
  refine if_congr (and_congr_left fun _ => ?_) rfl rfl
  simp [Diagnostic.underRule, Diagnostic.atLine, Diagnostic.place, List.filter_eq_nil_iff,
    and_comm, and_left_comm]

theorem answeredRepaired (settings : Settings) (found : List Diagnostic) (path : Path)
    (text : List Char) :
    answered .requireImports (Diagnostic.underRule settings.requireImportRule found) path
        (blanked settings found path text) = repaired settings found path text := by
  rw [answered, repaired, patched, Fixer.patch, Patch.conversionResult, ← ite_not]
  refine if_congr ?_ rfl rfl
  simp [Diagnostic.underRule, List.filter_eq_nil_iff, and_comm]

section

variable {files : FileTree} {diagnostics : List Diagnostic}

/-- Of the diagnostics of a removable line the first is resolved. -/
theorem Separate.removedAtLine (separate : Separate files diagnostics) {diagnostic : Diagnostic}
    (given : diagnostic ∈ diagnostics) :
    Diagnostic.atLine (resolved .unusedVariables files diagnostics) diagnostic.file
        diagnostic.line =
      if removable files diagnostic then
        (Diagnostic.atLine diagnostics diagnostic.file diagnostic.line).take 1
      else [] := by
  refine (separate.lineEditAtLine LineEdit.blankDeclarationSafe id (fun _ _ => rfl) given
    diagnostic.line).trans ?_
  unfold removable
  cases (Buffer.ofText (files.textOf diagnostic.file)).line? diagnostic.line with
  | none => rfl
  | some line => simp [LineEdit.blankChanges]

theorem countPlace (diagnostic : Diagnostic) (diagnostics : List Diagnostic) :
    (diagnostics.map Diagnostic.place).count diagnostic.place =
      (Diagnostic.atLine diagnostics diagnostic.file diagnostic.line).length := by
  rw [List.count_eq_length_filter, List.filter_map, List.length_map]
  refine congrArg List.length (List.filter_congr fun other _ => ?_)
  simp [Diagnostic.place, beq_eq_decide]

/-- A line is counted once if it is removable, and never otherwise. -/
theorem Separate.removedCount (separate : Separate files diagnostics) {diagnostic : Diagnostic}
    (given : diagnostic ∈ diagnostics) :
    ((resolved .unusedVariables files diagnostics).map Diagnostic.place).count diagnostic.place =
      if removable files diagnostic then 1 else 0 := by
  rw [countPlace, separate.removedAtLine given]
  split
  · have own : diagnostic ∈ Diagnostic.atLine diagnostics diagnostic.file diagnostic.line := by
      simp [Diagnostic.atLine, Diagnostic.place, given]
    rw [List.length_take, Nat.min_eq_left (List.length_pos_of_mem own)]
  · rfl

/-- The resolved declarations stand on the lines that are blanked, one on each. -/
theorem Separate.removedPerm (separate : Separate files diagnostics) :
    ((resolved .unusedVariables files diagnostics).map Diagnostic.place).Perm
      ((diagnostics.filter (removable files)).map Diagnostic.place).dedup := by
  have given := (resolvedSubperm .unusedVariables files diagnostics).subset
  refine (List.perm_ext_iff_of_nodup ?_ (List.nodup_dedup _)).mpr fun place => ?_
  · refine List.nodup_iff_count_le_one.mpr fun place => ?_
    by_cases inside : place ∈ (resolved .unusedVariables files diagnostics).map Diagnostic.place
    · obtain ⟨diagnostic, isResolved, rfl⟩ := List.mem_map.mp inside
      rw [separate.removedCount (given isResolved)]
      split <;> omega
    · rw [List.count_eq_zero_of_not_mem inside]
      omega
  · rw [List.mem_dedup]
    constructor
    · intro inside
      obtain ⟨diagnostic, isResolved, rfl⟩ := List.mem_map.mp inside
      have positive := List.count_pos_iff.mpr inside
      rw [separate.removedCount (given isResolved)] at positive
      refine List.mem_map_of_mem (List.mem_filter.mpr ⟨given isResolved, ?_⟩)
      by_contra stays
      simp [stays] at positive
    · intro inside
      obtain ⟨diagnostic, isRemovable, rfl⟩ := List.mem_map.mp inside
      obtain ⟨isGiven, blanks⟩ := List.mem_filter.mp isRemovable
      rw [← List.count_pos_iff, separate.removedCount isGiven, if_pos blanks]
      omega

/-- The diagnostics of a file are resolved together when the conversion changes the file. -/
theorem Separate.convertedPerm (separate : Separate files diagnostics) :
    (resolved .requireImports files diagnostics).Perm (diagnostics.filter fun diagnostic =>
      (ImportConversion.ofText (files.textOf diagnostic.file)).text ≠
        files.textOf diagnostic.file) := by
  have partitions := FileGroup.ofDiagnosticsPartitions diagnostics
  have wholeGroups : ∀ group ∈ FileGroup.ofDiagnostics diagnostics,
      (groupPatch .requireImports files group).fixed = group.diagnostics.filter fun diagnostic =>
        (ImportConversion.ofText (files.textOf diagnostic.file)).text ≠
          files.textOf diagnostic.file := by
    intro group inside
    obtain ⟨first, isFirst, path⟩ := partitions.pathInside inside
    have sameText : ∀ diagnostic ∈ group.diagnostics,
        files.textOf diagnostic.file = files.textOf group.path := by
      intro diagnostic isMember
      obtain ⟨isGiven, same⟩ := (partitions.members_iff inside).mp isMember
      rw [← path]
      exact separate.sameText isGiven isFirst (by rw [path, same])
    simp only [groupPatch, Fixer.patch, Patch.ofConversion]
    split
    · next unchanged =>
      refine (List.filter_eq_nil_iff.mpr fun diagnostic isMember => ?_).symm
      simp [sameText diagnostic isMember, unchanged]
    · next changed =>
      refine (List.filter_eq_self.mpr fun diagnostic isMember => ?_).symm
      simp [sameText diagnostic isMember, changed]
  rw [resolved, List.flatMap_congr wholeGroups, ← List.filter_flatMap]
  exact partitions.membersPerm.filter _

end

theorem runCollect {source : Collect} {files after : FileTree} {collected : List Diagnostic}
    (gives : source files = (.ok collected, after)) (notices : List Notice)
    (warnings : List Warning) :
    (collect source).run ⟨files, notices, warnings⟩ =
      (.ok collected, ⟨after, notices, warnings⟩) := by
  simp only [collect, runBind, runGet, runModify, gives, runPure]

/-- The files after both fixers. -/
def filesRepaired (settings : Settings) (files : FileTree) (found : List Diagnostic) : FileTree :=
  filesAnswered .requireImports
    (filesAnswered .unusedVariables files (Diagnostic.underRule settings.unusedVariableRule found))
    (Diagnostic.underRule settings.requireImportRule found)

section

variable {settings : Settings} {files : FileTree} {found : List Diagnostic}

theorem unusedFlagged :
    Diagnostic.underRule settings.unusedVariableRule found ⊆ flagged settings found := by
  intro diagnostic given
  simp_all [Diagnostic.underRule, flagged]

theorem requireFlagged :
    Diagnostic.underRule settings.requireImportRule found ⊆ flagged settings found := by
  intro diagnostic given
  simp_all [Diagnostic.underRule, flagged]

/-- Between the fixers the removable lines are blank. -/
theorem Separate.textBetween (separate : Separate files (flagged settings found))
    {diagnostic : Diagnostic} (isFlagged : diagnostic ∈ flagged settings found) :
    (filesAnswered .unusedVariables files
        (Diagnostic.underRule settings.unusedVariableRule found)).textOf diagnostic.file =
      blanked settings found diagnostic.file (files.textOf diagnostic.file) := by
  rw [separate.textOfAnswered .unusedVariables unusedFlagged isFlagged, answeredBlanked]

theorem Separate.removedLength (separate : Separate files (flagged settings found)) :
    (resolved .unusedVariables files
        (Diagnostic.underRule settings.unusedVariableRule found)).length =
      (blankedLines settings files found).length := by
  have sameLength := (separate.subset unusedFlagged).removedPerm.length_eq
  rwa [List.length_map, filterUnderRule] at sameLength

theorem Separate.convertedLength (separate : Separate files (flagged settings found)) :
    (resolved .requireImports
        (filesAnswered .unusedVariables files
          (Diagnostic.underRule settings.unusedVariableRule found))
        (Diagnostic.underRule settings.requireImportRule found)).length =
      (converted settings files found).length := by
  have between := separate.updates (filesAnsweredUpdates .unusedVariables files
    (Diagnostic.underRule settings.unusedVariableRule found))
  refine (between.subset requireFlagged).convertedPerm.length_eq.trans ?_
  rw [filterUnderRule, converted]
  refine congrArg List.length (List.filter_congr fun diagnostic isFound => ?_)
  by_cases own : diagnostic.rule = settings.requireImportRule
  · have isFlagged : diagnostic ∈ flagged settings found := by simp [flagged, isFound, own]
    simp [separate.textBetween isFlagged]
  · simp [own]

/-- The flagged files are separate, and each takes the texts that a repair has for it. Only a text that
differs from the one before it is written. -/
structure Repairable (settings : Settings) (files : FileTree) (found : List Diagnostic) : Prop where
  separate : Separate files (flagged settings found)
  blanks : ∀ diagnostic ∈ flagged settings found, ∀ location text,
    files.readText diagnostic.file = .ok (location, text) →
      files.Takes location text.toList (blanked settings found diagnostic.file text.toList)
  converts : ∀ diagnostic ∈ flagged settings found, ∀ location text,
    files.readText diagnostic.file = .ok (location, text) →
      files.Takes location (blanked settings found diagnostic.file text.toList)
        (repaired settings found diagnostic.file text.toList)

namespace Repairable

theorem removable (repairable : Repairable settings files found) :
    Answerable .unusedVariables files (FileGroup.ofDiagnostics
      (Diagnostic.underRule settings.unusedVariableRule found)) := by
  refine (repairable.separate.subset unusedFlagged).answerable fun diagnostic given location text
    read => ?_
  rw [answeredBlanked]
  exact repairable.blanks diagnostic (unusedFlagged given) location text read

theorem convertible (repairable : Repairable settings files found) :
    Answerable .requireImports
      (filesAnswered .unusedVariables files
        (Diagnostic.underRule settings.unusedVariableRule found))
      (FileGroup.ofDiagnostics (Diagnostic.underRule settings.requireImportRule found)) := by
  have updates := filesAnsweredUpdates .unusedVariables files
    (Diagnostic.underRule settings.unusedVariableRule found)
  have between := repairable.separate.updates updates
  refine (between.subset requireFlagged).answerable fun diagnostic given location kept reread => ?_
  have isFlagged := requireFlagged given
  obtain ⟨place, text, read⟩ := repairable.separate.readable diagnostic isFlagged
  rw [repairable.separate.readTextAnswered .unusedVariables unusedFlagged isFlagged read] at reread
  cases reread
  rw [String.toList_ofList, answeredBlanked, answeredRepaired]
  intro changed
  rw [updates.writeError]
  exact repairable.converts diagnostic isFlagged location text read changed

/-- The repair of separate files comes to its end. -/
theorem lintRun (repairable : Repairable settings files found) {source : Source}
    {remaining : List Diagnostic} (initial : source.initial files = (.ok found, files))
    (recheck : source.recheck (filesRepaired settings files found) =
      (.ok remaining, filesRepaired settings files found)) :
    ∃ notices warnings, (lint settings source).run (.start files) =
      (.ok ⟨found.length,
          (blankedLines settings files found).length + (converted settings files found).length,
          remaining.length⟩,
        ⟨filesRepaired settings files found, notices, warnings⟩) := by
  have separate := repairable.separate
  have between := separate.updates (filesAnsweredUpdates .unusedVariables files
    (Diagnostic.underRule settings.unusedVariableRule found))
  have whole : filesAnswered .requireImports
      (filesAnswered .unusedVariables files
        (Diagnostic.underRule settings.unusedVariableRule found))
      (Diagnostic.underRule settings.requireImportRule found) =
        filesRepaired settings files found := rfl
  simp only [lint, fixRule, Progress.start, runBind, runTell, runCollect initial,
    (separate.subset unusedFlagged).fixGroupsSeparate repairable.removable,
    (between.subset requireFlagged).fixGroupsSeparate repairable.convertible, whole,
    runCollect recheck, runPure, separate.removedLength, separate.convertedLength]
  exact ⟨_, _, rfl⟩

end Repairable

end

/-- A report leads the repair of its files to one end, unless collecting fails or changes files. Every
file that is not flagged stays, every flagged file ends with its repaired text, and the summary counts
both reports, the blanked lines and the converted diagnostics. -/
theorem lintRepairs (settings : Settings) (files : FileTree) (found : List Diagnostic)
    (repairable : Repairable settings files found) :
    ∃ after : FileTree,
      (∀ (source : Source) (remaining : List Diagnostic),
        source.initial files = (.ok found, files) →
        source.recheck after = (.ok remaining, after) →
        ∃ progress, (lint settings source).run (.start files) =
            (.ok ⟨found.length,
              (blankedLines settings files found).length +
                (converted settings files found).length,
              remaining.length⟩, progress) ∧
          progress.files = after) ∧
      (∀ location, (∀ diagnostic ∈ flagged settings found,
          files.resolve diagnostic.file ≠ .ok location) →
        after.entryAt? location = files.entryAt? location) ∧
      ∀ diagnostic ∈ flagged settings found, ∀ location text,
        files.readText diagnostic.file = .ok (location, text) →
        after.readText diagnostic.file =
          .ok (location, String.ofList (repaired settings found diagnostic.file text.toList)) := by
  have separate := repairable.separate
  have updates := filesAnsweredUpdates .unusedVariables files
    (Diagnostic.underRule settings.unusedVariableRule found)
  refine ⟨filesRepaired settings files found, fun source remaining initial recheck => ?_,
    fun location elsewhere => ?_, fun diagnostic isFlagged location text read => ?_⟩
  · obtain ⟨notices, warnings, runs⟩ := repairable.lintRun initial recheck
    exact ⟨_, runs, rfl⟩
  · refine (Separate.entryAnswered .requireImports fun diagnostic given => ?_).trans
      (Separate.entryAnswered .unusedVariables fun diagnostic given => ?_)
    · rw [updates.resolve]
      exact elsewhere diagnostic (requireFlagged given)
    · exact elsewhere diagnostic (unusedFlagged given)
  · have first := separate.readTextAnswered .unusedVariables unusedFlagged isFlagged read
    have second := (separate.updates updates).readTextAnswered .requireImports requireFlagged
      isFlagged first
    rwa [String.toList_ofList, answeredBlanked, answeredRepaired] at second

def mixedText : String := "let x = 1;\nconst f = require('fs');\n"

/-- A file with a declaration and a `require` call, a link to it from elsewhere, and a file with the
declaration alone. -/
def mixedFiles : FileTree where
  entries := [(["app"], .directory), (["app", "a.ts"], .file (encoded mixedText)),
    (["app", "b.ts"], .file (encoded "let x = 1;\n")), (["tmp"], .directory),
    (["tmp", "app"], .link ⟨"../app"⟩)]
  workingDirectory := ["app"]

/-- The declaration is reported twice, and the file is spelled in two ways. -/
def mixedReport : List Diagnostic :=
  [⟨⟨"/tmp/app/a.ts"⟩, 1, some 5, Settings.defaults.unusedVariableRule, "'x' is never used.", none⟩,
    ⟨⟨"b.ts"⟩, 1, some 1, "prefer-const", "Use const.", none⟩,
    ⟨⟨"/tmp//app/a.ts"⟩, 2, some 12, Settings.defaults.requireImportRule, "A require call.", none⟩,
    ⟨⟨"/tmp//app/a.ts"⟩, 1, some 5, Settings.defaults.unusedVariableRule, "'x' is never used.",
      none⟩]

theorem mixedRepairable : Repairable .defaults mixedFiles mixedReport ∧
    ∀ diagnostic ∈ flagged .defaults mixedReport,
      mixedFiles.readText diagnostic.file = .ok (["app", "a.ts"], mixedText) := by
  have paths : ∀ diagnostic ∈ flagged .defaults mixedReport,
      diagnostic.file = ⟨"/tmp/app/a.ts"⟩ ∨ diagnostic.file = ⟨"/tmp//app/a.ts"⟩ := by decide
  have components : ∀ diagnostic ∈ flagged .defaults mixedReport,
      diagnostic.file.components = Path.components ⟨"/tmp/app/a.ts"⟩ := by decide
  have read : ∀ diagnostic ∈ flagged .defaults mixedReport,
      mixedFiles.readText diagnostic.file = .ok (["app", "a.ts"], mixedText) := by
    intro diagnostic given
    rcases paths diagnostic given with path | path <;> rw [path] <;> decide +kernel
  have takes : ∀ diagnostic ∈ flagged .defaults mixedReport, ∀ location text,
      mixedFiles.readText diagnostic.file = .ok (location, text) →
        ∀ old new, mixedFiles.Takes location old new := by
    intro diagnostic given location text reads old new _
    rw [read diagnostic given] at reads
    cases reads
    rfl
  refine ⟨⟨⟨fun diagnostic given => ⟨_, _, read diagnostic given⟩, ?_⟩,
    fun diagnostic given location text reads => takes diagnostic given location text reads _ _,
    fun diagnostic given location text reads => takes diagnostic given location text reads _ _⟩,
    read⟩
  intro left isLeft right isRight different
  exact absurd ((components left isLeft).trans (components right isRight).symm) different

theorem mixedRepaired : ∃ progress,
    (lint .defaults (.ofReports (.ok mixedReport) (.ok []))).run (.start mixedFiles) =
      (.ok ⟨4, 2, 0⟩, progress) ∧
    progress.files.readText ⟨"/tmp/app/a.ts"⟩ =
      .ok (["app", "a.ts"], "\nimport f from \"fs\";\n") ∧
    progress.files.entryAt? ["app", "b.ts"] = mixedFiles.entryAt? ["app", "b.ts"] := by
  obtain ⟨repairable, read⟩ := mixedRepairable
  obtain ⟨after, ends, others, texts⟩ := lintRepairs .defaults mixedFiles mixedReport repairable
  obtain ⟨progress, runs, rfl⟩ := ends (.ofReports (.ok mixedReport) (.ok [])) [] rfl rfl
  have lines : (blankedLines .defaults mixedFiles mixedReport).length = 1 := by decide +kernel
  have calls : (converted .defaults mixedFiles mixedReport).length = 1 := by decide +kernel
  have final : String.ofList
      (repaired .defaults mixedReport ⟨"/tmp/app/a.ts"⟩ mixedText.toList) =
        "\nimport f from \"fs\";\n" := by decide +kernel
  have isFlagged : mixedReport[0] ∈ flagged .defaults mixedReport := by decide
  rw [lines, calls] at runs
  refine ⟨progress, runs, ?_, others _ fun diagnostic given place => ?_⟩
  · rw [← final]
    exact texts mixedReport[0] isFlagged _ _ (read _ isFlagged)
  · obtain ⟨leads, -⟩ := FileTree.readText_eq_ok_iff.mp (read diagnostic given)
    rw [leads] at place
    simp at place

end Run

end LintRepair
