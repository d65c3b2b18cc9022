/-
This file follows the repair of a single file: what it reports, what it tells, and how the files
change.
-/

import LintRepair.Repair.Run
import LintRepair.Proofs.FileTree.Update
import LintRepair.Proofs.Fix.Fixer

namespace LintRepair

namespace Run

section

variable {First Second : Type}

/-- A run goes on behind its first part unless that part stopped. -/
theorem runBind (action : Run First) (next : First → Run Second) (progress : Progress) :
    (action >>= next).run progress =
      match action.run progress with
      | (.ok value, between) => (next value).run between
      | (.error error, between) => (.error error, between) := by
  unfold ExceptT.run
  simp only [bind, ExceptT.bind, ExceptT.mk, StateT.bind]
  cases action progress with
  | mk result between => cases result <;> rfl

@[simp] theorem runPure (value : First) (progress : Progress) :
    (pure value : Run First).run progress = (.ok value, progress) := rfl

@[simp] theorem runThrow (error : RunError) (progress : Progress) :
    (throw error : Run First).run progress = (.error error, progress) := rfl

@[simp] theorem runGet (progress : Progress) :
    (get : Run Progress).run progress = (.ok progress, progress) := rfl

@[simp] theorem runModify (change : Progress → Progress) (progress : Progress) :
    (modify change : Run PUnit).run progress = (.ok ⟨⟩, change progress) := rfl

@[simp] theorem runTell (notices : List Notice) (progress : Progress) :
    (tell notices).run progress =
      (.ok ⟨⟩, { progress with notices := progress.notices ++ notices }) := rfl

@[simp] theorem runWarn (warning : Warning) (progress : Progress) :
    (warn warning).run progress =
      (.ok ⟨⟩, { progress with warnings := progress.warnings ++ [warning] }) := rfl

end

theorem runWriteText (path : Path) (location : Location) (text : String) (progress : Progress) :
    (writeText path location text).run progress =
      (match progress.files.writeError? location (encoded text) with
        | none => .ok ⟨⟩
        | some error => .error (.write path error),
      { progress with files := progress.files.write location (encoded text) }) := by
  simp only [writeText, runBind, runGet, runModify, encoded]
  cases progress.files.writeError? location text.toUTF8.data.toList <;> rfl

theorem fixFileUnreadable (fixer : Fixer) {path : Path} (diagnostics : List Diagnostic)
    {progress : Progress} {error : FileError}
    (unreadable : progress.files.readText path = .error error) :
    (fixFile fixer path diagnostics).run progress = (.error (.read path error), progress) := by
  simp [fixFile, runBind, unreadable]

/-- The warning that a patch calls for. -/
def warningsOf (path : Path) (patch : Patch) : List Warning :=
  if 0 < patch.doubleAwaited then [⟨path, patch.doubleAwaited⟩] else []

/-- The files after a patch of the file at a location, if the file takes it. -/
def filesAfter (files : FileTree) (location : Location) (patch : Patch) : FileTree :=
  match patch.written with
  | none => files
  | some written => files.putContent location (encoded (String.ofList written))

/-- The change that a fixer makes to the text of a file in answer to diagnostics. -/
def patched (fixer : Fixer) (diagnostics : List Diagnostic) (text : List Char) : List Char :=
  (fixer.patch text diagnostics).result text

theorem patchedEmpty (fixer : Fixer) (diagnostics : List Diagnostic) :
    patched fixer diagnostics [] = [] := by
  simp [patched, Patch.result, Fixer.patchEmpty]

/-- Only a new text is written. -/
theorem writtenPatched (fixer : Fixer) (diagnostics : List Diagnostic) (text : List Char) :
    (fixer.patch text diagnostics).written =
      if patched fixer diagnostics text = text then none
      else some (patched fixer diagnostics text) := by
  split
  · next same => exact (fixer.patchWritten text diagnostics).mpr same
  · next changed =>
    cases asks : (fixer.patch text diagnostics).written with
    | none => exact absurd ((fixer.patchWritten text diagnostics).mp asks) changed
    | some written => simp [patched, Patch.result, asks]

section

variable (fixer : Fixer) {path : Path} (diagnostics : List Diagnostic) {progress : Progress}
  {location : Location} {text : String}

theorem fixFileReadable (readable : progress.files.readText path = .ok (location, text))
    (takes : progress.files.Takes location text.toList (patched fixer diagnostics text.toList)) :
    (fixFile fixer path diagnostics).run progress =
      (.ok (fixer.patch text.toList diagnostics).fixed,
        ⟨filesAfter progress.files location (fixer.patch text.toList diagnostics),
          progress.notices,
          progress.warnings ++ warningsOf path (fixer.patch text.toList diagnostics)⟩) := by
  simp only [fixFile, runBind, runGet, readable, filesAfter, warningsOf,
    writtenPatched fixer diagnostics text.toList]
  by_cases same : patched fixer diagnostics text.toList = text.toList
  · simp only [if_pos same]
    split <;> simp only [runBind, runWarn, runPure, List.append_nil]
  · have writable := takes same
    simp only [if_neg same]
    split <;> simp only [runBind, runWarn, runPure, runWriteText, writable,
      FileTree.writeDone writable, List.append_nil]

/-- A new text that cannot be written stops the repair behind the warning. -/
theorem fixFileRefused (readable : progress.files.readText path = .ok (location, text))
    (changed : patched fixer diagnostics text.toList ≠ text.toList) {error : FileError}
    (refused : progress.files.writeError? location
      (encoded (String.ofList (patched fixer diagnostics text.toList))) = some error) :
    (fixFile fixer path diagnostics).run progress =
      (.error (.write path error),
        ⟨progress.files.write location
            (encoded (String.ofList (patched fixer diagnostics text.toList))),
          progress.notices,
          progress.warnings ++ warningsOf path (fixer.patch text.toList diagnostics)⟩) := by
  simp only [fixFile, runBind, runGet, readable, warningsOf,
    writtenPatched fixer diagnostics text.toList, if_neg changed]
  split <;> simp only [runBind, runWarn, runWriteText, refused, List.append_nil]

end

/-- The text of the patched file becomes the result of the patch, and nothing else changes. -/
theorem filesAfterUpdates (fixer : Fixer) {path : Path} (diagnostics : List Diagnostic)
    {files : FileTree} {location : Location} {text : String}
    (readable : files.readText path = .ok (location, text)) :
    files.Updates (fun place old =>
        if place = location then patched fixer diagnostics old else old)
      (filesAfter files location (fixer.patch text.toList diagnostics)) := by
  obtain ⟨-, read⟩ := FileTree.readText_eq_ok_iff.mp readable
  have empty : ∀ place : Location,
      (if place = location then patched fixer diagnostics [] else []) = [] := by
    intro place
    rw [patchedEmpty, ite_self]
  rw [filesAfter, writtenPatched]
  by_cases same : patched fixer diagnostics text.toList = text.toList
  · rw [if_pos same]
    refine (FileTree.updatesRefl files).congr empty fun place other writing known => ?_
    split
    · next own =>
      -- The only text that the change touches is the one that was read.
      subst own
      rw [FileTree.contentOfText known, Except.ok.injEq] at read
      rw [encodedInjective read, same]
    · rfl
  · rw [if_neg same]
    refine ⟨fun place => ?_, FileTree.workingDirectoryPutContent _ _ _, empty⟩
    by_cases own : place = location
    · subst own
      rcases FileTree.entryOfContent read with ⟨writing, known⟩ | ⟨-, nothing⟩
      · simp only [FileTree.entryPutContent, known, Option.map_some, Entry.rewriteText, ↓reduceIte]
      · have isEmpty : text = "" := encodedInjective nothing
        rw [isEmpty, String.toList_empty, patchedEmpty] at same
        exact absurd rfl same
    · simp only [FileTree.entryPutContentElsewhere files _ own, if_neg own]
      exact (FileTree.updatesRefl files).entries place

/-- The patched file can be read again where it was. -/
theorem readTextPatched (fixer : Fixer) {path : Path} (diagnostics : List Diagnostic)
    {files : FileTree} {location : Location} {text : String}
    (readable : files.readText path = .ok (location, text)) :
    (filesAfter files location (fixer.patch text.toList diagnostics)).readText path =
      .ok (location, String.ofList (patched fixer diagnostics text.toList)) := by
  rw [(filesAfterUpdates fixer diagnostics readable).readText readable, if_pos rfl]

/-- The repair of a readable file touches no other location. It returns a list unless there are new
bytes for the file that it does not take. The list is empty exactly if the bytes of the file are the
same as before, and it holds some of the given diagnostics, each as often as it was given at most. The
repair of any other file stops with its error and changes nothing. A conversion changes a text exactly
if it replaces something. -/
theorem fixFileHonest (fixer : Fixer) (path : Path) {diagnostics : List Diagnostic}
    (given : diagnostics ≠ []) (progress : Progress) :
    (match progress.files.readText path with
      | .ok (location, text) => ∃ result after,
          (fixFile fixer path diagnostics).run progress = (result, after) ∧
          (∀ other, other ≠ location →
            after.files.entryAt? other = progress.files.entryAt? other) ∧
          match result with
          | .ok fixed =>
              (fixed ≠ [] ↔ after.files.bytesOf path ≠ progress.files.bytesOf path) ∧
                fixed.Subperm diagnostics
          | .error reason => ∃ error content, reason = .write path error ∧
              content ≠ encoded text ∧
              progress.files.writeError? location content = some error ∧
              after.files = progress.files.write location content
      | .error error =>
          (fixFile fixer path diagnostics).run progress = (.error (.read path error), progress)) ∧
    ∀ text, (ImportConversion.ofText text).text = text ↔
      (ImportConversion.ofText text).replacements = 0 := by
  refine ⟨?_, ImportConversion.text_eq_iff⟩
  cases readable : progress.files.readText path with
  | error error => exact fixFileUnreadable fixer diagnostics readable
  | ok found =>
    obtain ⟨location, text⟩ := found
    by_cases takes : progress.files.Takes location text.toList
        (patched fixer diagnostics text.toList)
    · refine ⟨_, _, fixFileReadable fixer diagnostics readable takes, fun other elsewhere => ?_, ?_,
        fixer.patchSubperm text.toList diagnostics⟩
      · exact (filesAfterUpdates fixer diagnostics readable).entrySame fun old => if_neg elsewhere
      · rw [FileTree.bytesOfReadable readable,
          FileTree.bytesOfReadable (readTextPatched fixer diagnostics readable)]
        refine not_congr ((fixer.patchHonest text.toList given).trans ?_)
        refine ⟨fun same => ?_, fun same => ?_⟩
        · rw [patched, same, String.ofList_toList]
        · have unchanged := encodedInjective (Except.ok.inj same)
          simpa [patched] using congrArg String.toList unchanged
    · obtain ⟨changed, error, refused⟩ := FileTree.notTakes_iff.mp takes
      refine ⟨_, _, fixFileRefused fixer diagnostics readable changed refused,
        fun other elsewhere => FileTree.entryWriteElsewhere _ _ elsewhere, error, _, rfl, ?_, refused,
        rfl⟩
      intro same
      exact changed (by simpa using congrArg String.toList (encodedInjective same))

/-- A project with some files in its directory. -/
def projectFiles (files : List (String × String)) : FileTree where
  entries := (["app"], .directory) ::
    files.map fun (name, text) => (["app", name], .file (encoded text))
  workingDirectory := ["app"]

/-- A file whose only line is a declaration. -/
def declarationFiles : FileTree :=
  projectFiles [("a.ts", "let x = 1;\n")]

def declarationReport : List Diagnostic :=
  [⟨⟨"/app/a.ts"⟩, 1, none, "no-unused-vars", "'x' is never used.", some "x"⟩]

theorem declarationReported : declarationReport ≠ [] ∧ ∃ after,
    (fixFile .unusedVariables ⟨"/app/a.ts"⟩ declarationReport).run (.start declarationFiles) =
      (.ok declarationReport, after) ∧
    after.files.bytesOf ⟨"/app/a.ts"⟩ ≠ declarationFiles.bytesOf ⟨"/app/a.ts"⟩ := by
  have given : declarationReport ≠ [] := List.cons_ne_nil _ _
  have readable : declarationFiles.readText ⟨"/app/a.ts"⟩ =
      .ok (["app", "a.ts"], "let x = 1;\n") := rfl
  have honest := (fixFileHonest .unusedVariables ⟨"/app/a.ts"⟩ given (.start declarationFiles)).1
  simp only [Progress.start, readable] at honest
  obtain ⟨result, after, runs, -, outcome⟩ := honest
  have reported : ((fixFile .unusedVariables ⟨"/app/a.ts"⟩ declarationReport).run
      (.start declarationFiles)).1 = .ok declarationReport := rfl
  rw [Progress.start, runs] at reported
  subst reported
  exact ⟨given, after, runs, outcome.1.mp given⟩

end Run

end LintRepair
