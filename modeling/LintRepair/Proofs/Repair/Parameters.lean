/-
This file describes the whole parameter repair when every named file can be read and takes its new
text: what becomes of every line, and which renamed parameters are told in which order.
-/

import LintRepair.Proofs.Repair.Separate
import LintRepair.Proofs.Repair.Transcript

namespace LintRepair

namespace Run

/-- What a parameter repair does to the files that some diagnostics name, and which diagnostics it
tells: those that change their line when all diagnostics of the line act on it one after the other,
in path order and then in line order. Line endings and all other files stay. -/
structure Prefixes (diagnostics told : List Diagnostic) (before after : FileTree) : Prop where
  chosen : told.Subperm diagnostics
  ordered : told.Pairwise fun left right => compare left.file right.file = .lt ∨
    left.file.components = right.file.components ∧ left.line ≤ right.line
  effective : ∀ diagnostic ∈ diagnostics, ∀ location text,
    before.readText diagnostic.file = .ok (location, text) → ∀ number,
      Diagnostic.atLine told diagnostic.file number =
        (((Buffer.ofText text.toList).line? number).map fun line =>
          LineEdit.prefixParameter.changes line
            (Diagnostic.atLine diagnostics diagnostic.file number)).getD []
  lines : ∀ diagnostic ∈ diagnostics, ∀ location text,
    before.readText diagnostic.file = .ok (location, text) →
      ∃ final, after.readText diagnostic.file = .ok (location, final) ∧
        (Buffer.ofText final.toList).lines.map Line.ending =
          (Buffer.ofText text.toList).lines.map Line.ending ∧
        ∀ number, (Buffer.ofText final.toList).line? number =
          ((Buffer.ofText text.toList).line? number).map fun line =>
            (Diagnostic.atLine diagnostics diagnostic.file number).foldl
              LineEdit.prefixParameter.step line
  others : ∀ location, (∀ diagnostic ∈ diagnostics,
      before.resolve diagnostic.file ≠ .ok location) →
    after.entryAt? location = before.entryAt? location

/-- The text with all unread parameters of its file renamed. -/
def prefixedText (diagnostics : List Diagnostic) (path : Path) (text : List Char) : List Char :=
  ((Buffer.ofText text).mapTexts fun number line =>
    (Diagnostic.atLine diagnostics path number).foldl LineEdit.prefixParameter.step line).contents

theorem answeredPrefixed (diagnostics : List Diagnostic) (path : Path) (text : List Char) :
    answered .unusedParameters diagnostics path text = prefixedText diagnostics path text :=
  answeredLineEdit LineEdit.prefixParameterSafe rfl diagnostics path text

/-- The files are separate, and each takes its new text. -/
structure Prefixable (files : FileTree) (diagnostics : List Diagnostic) : Prop where
  separate : Separate files diagnostics
  prefixes : ∀ diagnostic ∈ diagnostics, ∀ location text,
    files.readText diagnostic.file = .ok (location, text) →
      files.Takes location text.toList (prefixedText diagnostics diagnostic.file text.toList)

/-- The renamed parameters, group by group and line by line. -/
def renamed (files : FileTree) (diagnostics : List Diagnostic) : List Diagnostic :=
  (FileGroup.ofDiagnostics diagnostics).flatMap fun group =>
    Diagnostic.ascending (groupPatch .unusedParameters files group).fixed

theorem renamedPerm (files : FileTree) (diagnostics : List Diagnostic) :
    (renamed files diagnostics).Perm (resolved .unusedParameters files diagnostics) :=
  List.Perm.flatMap_left _ fun _ _ => Diagnostic.sortByPerm _ _

theorem renamedOrdered (files : FileTree) (diagnostics : List Diagnostic) :
    (renamed files diagnostics).Pairwise fun left right => compare left.file right.file = .lt ∨
      left.file.components = right.file.components ∧ left.line ≤ right.line := by
  refine (FileGroup.ofDiagnosticsPartitions diagnostics).flatMapOrdered
    (fun group _ diagnostic inside => ?_) (fun group _ => Diagnostic.ascendingSorted _)
  have isFixed := (Diagnostic.sortByPerm _ _).subset inside
  exact (Fixer.unusedParameters.patchSubperm _ group.diagnostics).subset isFixed

variable {files : FileTree} {diagnostics : List Diagnostic}

/-- The lines of a repaired file are read back from its text. -/
theorem answeredLines (diagnostics : List Diagnostic) (path : Path) (text : List Char) :
    Buffer.ofText (answered .unusedParameters diagnostics path text) =
      (Buffer.ofText text).mapTexts fun number line =>
        (Diagnostic.atLine diagnostics path number).foldl LineEdit.prefixParameter.step line := by
  rw [answeredPrefixed, prefixedText]
  refine Buffer.ofTextMapTexts text (fun _ _ start => ?_) (fun _ _ start => ?_)
    (fun _ _ start => ?_)
  · exact LineEdit.stepsKeep (fun line => '\n' ∉ line)
      LineEdit.prefixParameterSafe.noLineFeed start _
  · exact LineEdit.stepsKeep (fun line => line.getLast? ≠ some '\r')
      LineEdit.prefixParameterSafe.noReturn start _
  · refine LineEdit.stepsKeep (fun line => line ≠ []) (fun edited _ empty => ?_) start _
    have longer := LineEdit.prefixParameterLonger edited
    simp [empty] at longer

theorem Separate.prefixes (separate : Separate files diagnostics) :
    Prefixes diagnostics (renamed files diagnostics) files
      (filesAnswered .unusedParameters files diagnostics) where
  chosen := (renamedPerm files diagnostics).subperm.trans
    (resolvedSubperm .unusedParameters files diagnostics)
  ordered := renamedOrdered files diagnostics
  effective := by
    intro diagnostic given location text read number
    rw [← FileTree.textOfReadable read]
    exact separate.lineEditAtLine LineEdit.prefixParameterSafe Diagnostic.ascending
      (fun fixed number => Diagnostic.ascendingLine number fixed) given number
  lines := by
    intro diagnostic given location text read
    refine ⟨_, separate.readTextAnswered .unusedParameters (List.Subset.refl _) given read, ?_, ?_⟩
    · rw [String.toList_ofList, answeredLines, Buffer.mapTextsEndings]
    · intro number
      rw [String.toList_ofList, answeredLines, Buffer.lineOfMapTexts]
  others := fun _ elsewhere => Separate.entryAnswered .unusedParameters elsewhere

theorem Prefixable.answerable (prefixable : Prefixable files diagnostics) :
    Answerable .unusedParameters files (FileGroup.ofDiagnostics diagnostics) := by
  refine prefixable.separate.answerable fun diagnostic given location text read => ?_
  rw [answeredPrefixed]
  exact prefixable.prefixes diagnostic given location text read

/-- A renamed parameter is told on one line. -/
theorem existingOneLine {output : List UInt8} {diagnostic : Diagnostic}
    (given : diagnostic ∈ existingUnread files output) : '\n' ∉ diagnostic.fixedLine.toList :=
  Notice.fixedLineOneLine (List.mem_of_mem_filter given)

/-- The repair comes to its end when the existing files that the output names are separate and take
their new texts. It does what the diagnostics of existing files ask for, it tells every renamed
parameter on a line and then their number, and the number is its result. -/
theorem parametersRepair (output : List UInt8) (files : FileTree)
    (prefixable : Prefixable files (existingUnread files output)) :
    ∃ told progress, (parameters output).run (.start files) = (.ok told.length, progress) ∧
      Notice.lines progress.notices = told.map Diagnostic.fixedLine ++
        ["", "Total fixes applied: " ++ toString told.length, ""] ∧
      Prefixes (existingUnread files output) told files progress.files := by
  have separate := prefixable.separate
  refine ⟨renamed files (existingUnread files output), ?_⟩
  have told := (renamedPerm files (existingUnread files output)).length_eq
  simp only [parameters, Progress.start, runBind, runGet,
    separate.prefixGroupsSeparate prefixable.answerable, runTell, runPure, ← told,
    List.nil_append]
  refine ⟨_, rfl, ?_, separate.prefixes⟩
  have oneLine : ∀ diagnostic ∈ renamed files (existingUnread files output),
      '\n' ∉ diagnostic.fixedLine.toList := fun diagnostic isTold =>
    existingOneLine (separate.prefixes.chosen.subset isTold)
  exact (Notice.prefixedLines oneLine _).trans (by rw [Notice.totalLines])

def handlerText : String := "const f = (x: any, y: any) => 1;\n"

/-- Two files with the same function. -/
def handlerFiles : FileTree :=
  projectFiles [("a.ts", handlerText), ("b.ts", handlerText)]

/-- Both parameters of one file are unread, and so is a parameter of a file that is gone. -/
def handlerOutput : List UInt8 :=
  encoded "a.ts(1,20): error TS6133: 'y' is declared but its value is never read.\n" ++
    encoded "c.ts(1,12): error TS6133: 'x' is declared but its value is never read.\n" ++
    encoded "a.ts(1,12): error TS6133: 'x' is declared but its value is never read.\n"

theorem handlerRenamed : ∃ progress,
    (parameters handlerOutput).run (.start handlerFiles) = (.ok 2, progress) ∧
    Notice.lines progress.notices = ["Fixed: a.ts:1 - prefixed 'y' with underscore",
      "Fixed: a.ts:1 - prefixed 'x' with underscore", "", "Total fixes applied: 2", ""] ∧
    ∃ final, progress.files.readText ⟨"a.ts"⟩ = .ok (["app", "a.ts"], final) ∧
      (Buffer.ofText final.toList).line? 1 = some "const f = (_x: any, _y: any) => 1;".toList := by
  have read : handlerFiles.readText ⟨"a.ts"⟩ = .ok (["app", "a.ts"], handlerText) := rfl
  have paths : ∀ diagnostic ∈ existingUnread handlerFiles handlerOutput,
      diagnostic.file = ⟨"a.ts"⟩ := by decide +kernel
  have prefixable : Prefixable handlerFiles (existingUnread handlerFiles handlerOutput) := by
    refine ⟨⟨fun diagnostic given => ⟨_, _, paths diagnostic given ▸ read⟩, ?_⟩, ?_⟩
    · intro left isLeft right isRight different
      rw [paths left isLeft, paths right isRight] at different
      exact absurd rfl different
    · intro diagnostic given location text reads _
      rw [paths diagnostic given, read] at reads
      cases reads
      rfl
  obtain ⟨told, progress, runs, tells, prefixes⟩ :=
    parametersRepair handlerOutput handlerFiles prefixable
  obtain ⟨diagnostic, given, path⟩ : ∃ diagnostic ∈ existingUnread handlerFiles handlerOutput,
      diagnostic.file = ⟨"a.ts"⟩ := by decide +kernel
  rw [← path] at read
  obtain ⟨final, reread, -, lines⟩ := prefixes.lines diagnostic given _ _ read
  have effective := prefixes.effective diagnostic given _ _ read 1
  rw [path] at reread effective lines
  have firstLine : ∀ diagnostic ∈ told, diagnostic.file = ⟨"a.ts"⟩ ∧ diagnostic.line = 1 := by
    have allFirst : ∀ diagnostic ∈ existingUnread handlerFiles handlerOutput,
        diagnostic.file = ⟨"a.ts"⟩ ∧ diagnostic.line = 1 := by decide +kernel
    exact fun diagnostic isTold => allFirst diagnostic (prefixes.chosen.subset isTold)
  have whole : Diagnostic.atLine told ⟨"a.ts"⟩ 1 = told := by
    refine List.filter_eq_self.mpr fun diagnostic isTold => ?_
    simp [Diagnostic.place, firstLine diagnostic isTold]
  rw [whole] at effective
  subst effective
  refine ⟨progress, runs, tells.trans ?_, final, reread, (lines 1).trans ?_⟩
  · decide +kernel
  · decide +kernel

end Run

end LintRepair
