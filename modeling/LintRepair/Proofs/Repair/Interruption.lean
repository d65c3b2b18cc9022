/-
This file describes what a repair leaves behind that cannot be finished: the groups before the
failure are answered as in any other repair, and nothing else is touched.
-/

import LintRepair.Proofs.Repair.LintStop
import LintRepair.Proofs.Repair.ParametersStop

namespace LintRepair

namespace Run

/-- What an interrupted repair leaves behind. Without a first report nothing but the banner is told. A
lint repair stops at the first answer that cannot be given, and a parameter repair at the first group
that cannot be answered: the file cannot be read, or it does not take its new text. When there is no
such answer and the second report fails, all answers have been given. -/
theorem interruptedRepairs (settings : Settings) (files : FileTree) :
    (∀ (source : Source) (error : SourceError), source.initial files = (.error error, files) →
      ∃ progress, (lint settings source).run (.start files) = (.error (.source error), progress) ∧
        progress.files = files ∧
        Notice.transcript progress.notices = "Fixing ESLint errors systematically...\n") ∧
    (∀ found, Distinct files (flagged settings found) →
      ((∃ answer ∈ answers settings found, ¬ answer.Possible settings files found) →
        ∃ given stopped error between after,
          LintStops settings files found given stopped error between after) ∧
      ((∀ answer ∈ answers settings found, answer.Possible settings files found) →
        ∃ after, LintUnchecked settings files found after)) ∧
    ∀ output, Distinct files (existingUnread files output) →
      (∃ diagnostic ∈ existingUnread files output,
        ¬ Renamable files (existingUnread files output) diagnostic.file) →
      ∃ answered stopped told error between after,
        ParametersStop files output answered stopped told error between after := by
  refine ⟨fun source error fails => ⟨_, lintUnlisted settings fails, rfl, ?_⟩,
    fun _ distinct => ⟨distinct.lintStops, distinct.lintUnchecked⟩,
    fun _ distinct => distinct.parametersStop⟩
  rw [Notice.transcriptCons, Notice.transcriptNil, String.append_empty]
  rfl

/-- A file with room for three bytes. -/
def fullFiles : FileTree where
  entries := [(["app"], .directory), (["app", "a.ts"], .file (encoded "let x = 1;\nuse(y);\n")
    { writing := .limited 3 .noSpace })]
  workingDirectory := ["app"]

-- The line is blanked, but the rest of the file is lost.
example :
    let outcome := (fixGroups .unusedVariables (FileGroup.ofDiagnostics declarationReport)).run
      (.start fullFiles)
    outcome.1 = .error (.write ⟨"/app/a.ts"⟩ .noSpace) ∧
      outcome.2.files.readText ⟨"a.ts"⟩ = .ok (["app", "a.ts"], "\nus") := by
  decide +kernel

/-- A file with two declarations. -/
def slashedFiles : FileTree :=
  projectFiles [("a.ts", "let x = 1;\nlet y = 2;\n")]

/-- The second path would lead into the file as if it were a directory. -/
def slashedReport : List Diagnostic :=
  [⟨⟨"a.ts"⟩, 1, none, Settings.defaults.unusedVariableRule, "'x' is never used.", none⟩,
    ⟨⟨"a.ts/"⟩, 2, none, Settings.defaults.unusedVariableRule, "'y' is never used.", none⟩]

/-- A repair does not stop at a path that cannot be read when the file is read under another spelling
of the same components. -/
theorem slashedRepaired : Distinct slashedFiles (flagged .defaults slashedReport) ∧
    (∃ diagnostic ∈ flagged .defaults slashedReport,
      slashedFiles.readText diagnostic.file = .error .notDirectory) ∧
    ((lint .defaults (.ofReports (.ok slashedReport) (.ok []))).run (.start slashedFiles)).1 =
      .ok ⟨2, 2, 0⟩ := by
  have components : ∀ diagnostic ∈ flagged .defaults slashedReport,
      diagnostic.file.components = Path.components ⟨"a.ts"⟩ := by decide
  refine ⟨fun left isLeft right isRight different => ?_, ⟨slashedReport[1], ?_, ?_⟩, ?_⟩
  · exact absurd ((components left isLeft).trans (components right isRight).symm) different
  · decide
  · decide +kernel
  · decide +kernel

def arrowText : String := "let f = (x: any) => 1;\n"

/-- A file with a declaration, and a file that is no text. -/
def brokenFiles : FileTree where
  entries := [(["app"], .directory), (["app", "a.ts"], .file (encoded arrowText)),
    (["app", "b.ts"], .file [0xFF])]
  workingDirectory := ["app"]

def brokenReport : List Diagnostic :=
  [⟨⟨"b.ts"⟩, 1, some 1, Settings.defaults.requireImportRule, "A require call.", none⟩,
    ⟨⟨"a.ts"⟩, 1, some 5, Settings.defaults.unusedVariableRule, "'f' is never used.", none⟩]

def brokenOutput : List UInt8 :=
  encoded "b.ts(1,1): error TS6133: 'y' is declared but its value is never read.\n" ++
    encoded "a.ts(1,10): error TS6133: 'x' is declared but its value is never read.\n"

theorem brokenDistinct {diagnostics : List Diagnostic}
    (paths : ∀ diagnostic ∈ diagnostics, diagnostic.file = ⟨"a.ts"⟩ ∨ diagnostic.file = ⟨"b.ts"⟩) :
    Distinct brokenFiles diagnostics := by
  intro left isLeft right isRight different location leftLeads rightLeads
  have first : brokenFiles.resolve ⟨"a.ts"⟩ = .ok ["app", "a.ts"] := rfl
  have second : brokenFiles.resolve ⟨"b.ts"⟩ = .ok ["app", "b.ts"] := rfl
  have apart : ["app", "a.ts"] ≠ ["app", "b.ts"] := by decide
  rcases paths left isLeft with isFirst | isSecond <;>
    rcases paths right isRight with isFirst' | isSecond' <;> simp_all

theorem brokenAnswers : answers .defaults brokenReport =
    [⟨.unusedVariables, ⟨⟨"a.ts"⟩, [brokenReport[1]]⟩⟩,
      ⟨.requireImports, ⟨⟨"b.ts"⟩, [brokenReport[0]]⟩⟩] := by
  decide +kernel

def unusedArrow : Diagnostic :=
  ⟨⟨"a.ts"⟩, 1, some 10, "unused parameter",
    "TS6133: 'x' is declared but its value is never read.", some "x"⟩

theorem brokenGroups : ∃ other,
    FileGroup.ofDiagnostics (existingUnread brokenFiles brokenOutput) =
      [⟨⟨"a.ts"⟩, [unusedArrow]⟩, ⟨⟨"b.ts"⟩, [other]⟩] := by
  refine ⟨⟨⟨"b.ts"⟩, 1, some 1, "unused parameter",
    "TS6133: 'y' is declared but its value is never read.", some "y"⟩, ?_⟩
  decide +kernel

theorem brokenRead : brokenFiles.readText ⟨"a.ts"⟩ = .ok (["app", "a.ts"], arrowText) ∧
    brokenFiles.readText ⟨"b.ts"⟩ = .error .malformedText :=
  ⟨rfl, rfl⟩

/-- What can be read in these files takes any text. -/
theorem brokenFails {between after : FileTree} {path : Path} {old new : List Char → List Char}
    {error : RunError} (fails : Fails brokenFiles between path old new error after)
    (paths : path = ⟨"a.ts"⟩ ∨ path = ⟨"b.ts"⟩) :
    path = ⟨"b.ts"⟩ ∧ error = .read ⟨"b.ts"⟩ .malformedText ∧ after = between := by
  obtain ⟨read, unread⟩ := brokenRead
  cases fails with
  | unreadable fails =>
    rcases paths with rfl | rfl
    · rw [read] at fails
      cases fails
    · rw [unread] at fails
      cases fails
      exact ⟨rfl, rfl, rfl⟩
  | refused reads changed refuses =>
    rcases paths with rfl | rfl
    · rw [read] at reads
      cases reads
      cases refuses
    · rw [unread] at reads
      cases reads

theorem brokenLintStops {given : List Answer} {stopped : Answer} {error : RunError}
    {between after : FileTree}
    (stops : LintStops .defaults brokenFiles brokenReport given stopped error between after) :
    given = [⟨.unusedVariables, ⟨⟨"a.ts"⟩, [brokenReport[1]]⟩⟩] ∧
      stopped = ⟨.requireImports, ⟨⟨"b.ts"⟩, [brokenReport[0]]⟩⟩ ∧
      error = .read ⟨"b.ts"⟩ .malformedText ∧ after = between := by
  obtain ⟨⟨behind, order⟩, -, -, fails, -⟩ := stops
  rw [brokenAnswers] at order
  match given, order with
  | [], order =>
    obtain ⟨rfl, -⟩ := List.cons_eq_cons.mp order
    exact absurd (brokenFails fails (.inl rfl)).1 (by decide)
  | [first], order =>
    obtain ⟨rfl, rest⟩ := List.cons_eq_cons.mp order
    obtain ⟨rfl, -⟩ := List.cons_eq_cons.mp rest
    exact ⟨rfl, rfl, (brokenFails fails (.inr rfl)).2⟩
  | _ :: _ :: _, order => simp at order

theorem brokenParametersStop {answered : List FileGroup} {stopped : FileGroup}
    {told : List Diagnostic} {error : RunError} {between after : FileTree}
    (stops : ParametersStop brokenFiles brokenOutput answered stopped told error between after) :
    error = .read ⟨"b.ts"⟩ .malformedText ∧ told = [unusedArrow] := by
  obtain ⟨⟨behind, order⟩, -, renames, fails, -⟩ := stops
  obtain ⟨other, groups⟩ := brokenGroups
  rw [groups] at order
  match answered, order with
  | [], order =>
    obtain ⟨rfl, -⟩ := List.cons_eq_cons.mp order
    exact absurd (brokenFails fails (.inl rfl)).1 (by decide)
  | [first], order =>
    obtain ⟨rfl, rest⟩ := List.cons_eq_cons.mp order
    obtain ⟨rfl, -⟩ := List.cons_eq_cons.mp rest
    have only : within [⟨⟨"a.ts"⟩, [unusedArrow]⟩] (existingUnread brokenFiles brokenOutput) =
        [unusedArrow] := by decide +kernel
    rw [only] at renames
    have whole : Diagnostic.atLine told ⟨"a.ts"⟩ 1 = told := by
      refine List.filter_eq_self.mpr fun diagnostic isTold => ?_
      rw [List.mem_singleton.mp (renames.chosen.subset isTold)]
      decide +kernel
    have effective := renames.effective unusedArrow (List.mem_singleton_self _) _ _ brokenRead.1 1
    exact ⟨(brokenFails fails (.inr rfl)).2.1,
      whole.symm.trans (effective.trans (by decide +kernel))⟩
  | _ :: _ :: _, order => simp at order

/-- Without a report nothing is done. With it the lint repair blanks the declaration and stops at the
other file, and so does the parameter repair when it has renamed the parameter. A report of the first
file alone is answered before the second report fails. -/
theorem brokenInterrupted :
    (∃ progress, (lint .defaults (.ofReports (.error (.unreadable .truncated)) (.ok []))).run
        (.start brokenFiles) = (.error (.source (.unreadable .truncated)), progress) ∧
      progress.files = brokenFiles) ∧
    (∃ progress, (lint .defaults (.ofReports (.ok brokenReport) (.ok []))).run
        (.start brokenFiles) = (.error (.read ⟨"b.ts"⟩ .malformedText), progress) ∧
      progress.files.readText ⟨"a.ts"⟩ = .ok (["app", "a.ts"], "\n") ∧
      Notice.transcript progress.notices =
        "Fixing ESLint errors systematically...\nFound 2 error violations\n" ++
          "Fixing unused vars in a.ts...\nFixing require imports in b.ts...\n") ∧
    (∃ progress, (lint .defaults (.ofReports (.ok [brokenReport[1]])
        (.error (.unreadable .truncated)))).run (.start brokenFiles) =
          (.error (.source (.unreadable .truncated)), progress) ∧
      progress.files.readText ⟨"a.ts"⟩ = .ok (["app", "a.ts"], "\n")) ∧
    ∃ progress, (parameters brokenOutput).run (.start brokenFiles) =
        (.error (.read ⟨"b.ts"⟩ .malformedText), progress) ∧
      Notice.lines progress.notices = ["Fixed: a.ts:1 - prefixed 'x' with underscore", ""] := by
  obtain ⟨unlisted, lints, prefixes⟩ := interruptedRepairs .defaults brokenFiles
  obtain ⟨read, unread⟩ := brokenRead
  have noText : ∀ old new, ¬ Feasible brokenFiles ⟨"b.ts"⟩ old new := by
    rintro old new ⟨location, text, reads, -⟩
    rw [unread] at reads
    cases reads
  refine ⟨?_, ?_, ?_, ?_⟩
  · obtain ⟨progress, runs, same, -⟩ := unlisted (.ofReports (.error (.unreadable .truncated)) (.ok []))
      _ rfl
    exact ⟨progress, runs, same⟩
  · have distinct : Distinct brokenFiles (flagged .defaults brokenReport) :=
      brokenDistinct (by decide +kernel)
    have impossible : ∃ answer ∈ answers .defaults brokenReport,
        ¬ answer.Possible .defaults brokenFiles brokenReport :=
      ⟨⟨.requireImports, ⟨⟨"b.ts"⟩, [brokenReport[0]]⟩⟩, by simp [brokenAnswers], noText _ _⟩
    have final : String.ofList (blanked .defaults brokenReport ⟨"a.ts"⟩ arrowText.toList) = "\n" := by
      decide +kernel
    obtain ⟨given, stopped, error, between, after, stops⟩ := (lints _ distinct).1 impossible
    obtain ⟨rfl, rfl, rfl, rfl⟩ := brokenLintStops stops
    obtain ⟨progress, rfl, tells, runs⟩ := stops.run
    refine ⟨progress, runs _ rfl, ?_, tells.trans (by decide +kernel)⟩
    rw [← final]
    exact stops.leaves.blanked _ List.mem_cons_self (by simp) _ _ read
  · have distinct : Distinct brokenFiles (flagged .defaults [brokenReport[1]]) :=
      brokenDistinct (by decide +kernel)
    have onlyAnswer : answers .defaults [brokenReport[1]] =
        [⟨.unusedVariables, ⟨⟨"a.ts"⟩, [brokenReport[1]]⟩⟩] := by decide +kernel
    have possible : ∀ answer ∈ answers .defaults [brokenReport[1]],
        answer.Possible .defaults brokenFiles [brokenReport[1]] := by
      intro answer inside
      rw [onlyAnswer, List.mem_singleton] at inside
      subst inside
      exact ⟨_, _, read, fun _ => rfl⟩
    have final : String.ofList (blanked .defaults [brokenReport[1]] ⟨"a.ts"⟩ arrowText.toList) =
        "\n" := by decide +kernel
    obtain ⟨after, leaves, progress, rfl, -, runs⟩ := (lints _ distinct).2 possible
    refine ⟨progress, runs _ _ rfl rfl, ?_⟩
    rw [← final]
    exact leaves.blanked ⟨⟨"a.ts"⟩, [brokenReport[1]]⟩ (by simp [onlyAnswer]) (by simp [onlyAnswer])
      _ _ read
  · have paths : ∀ diagnostic ∈ existingUnread brokenFiles brokenOutput,
        diagnostic.file = ⟨"a.ts"⟩ ∨ diagnostic.file = ⟨"b.ts"⟩ := by decide +kernel
    obtain ⟨diagnostic, given, path⟩ : ∃ diagnostic ∈ existingUnread brokenFiles brokenOutput,
        diagnostic.file = ⟨"b.ts"⟩ := by decide +kernel
    obtain ⟨answered, stopped, told, error, between, after, stops⟩ :=
      prefixes brokenOutput (brokenDistinct paths) ⟨diagnostic, given, path ▸ noText _ _⟩
    obtain ⟨rfl, rfl⟩ := brokenParametersStop stops
    obtain ⟨progress, runs, -, tells⟩ := stops.run
    exact ⟨progress, runs, tells.trans (by decide +kernel)⟩

end Run

end LintRepair
