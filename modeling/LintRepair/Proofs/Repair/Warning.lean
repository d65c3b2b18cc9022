/-
This file shows when the repair of a file warns of imports that are awaited twice, and that the
number it tells is right.
-/

import LintRepair.Proofs.Fix.DoubleAwait
import LintRepair.Proofs.Repair.FixFile

namespace LintRepair.Run

open Text RequireImport

theorem conversionDoubleAwaited (text : List Char) (diagnostics : List Diagnostic) :
    (Patch.ofConversion text diagnostics).doubleAwaited =
      (ImportConversion.ofText text).doubleAwaited := by
  simp only [Patch.ofConversion]
  split <;> rfl

/-- A patch that leaves a text as it is awaits nothing twice. -/
theorem unchangedAwaitsNothing (fixer : Fixer) (text : List Char) (diagnostics : List Diagnostic)
    (unchanged : patched fixer diagnostics text = text) :
    (fixer.patch text diagnostics).doubleAwaited = 0 := by
  cases fixer with
  | unusedVariables => rfl
  | unusedParameters => rfl
  | requireImports =>
    rw [patched, Fixer.patch, Patch.conversionResult, ImportConversion.text_eq_iff] at unchanged
    have bound := awaitedBound (ImportConversion.declared text)
    rw [Fixer.patch, conversionDoubleAwaited]
    simp only [ImportConversion.ofText] at unchanged ⊢
    omega

/-- A repair that comes to its end warns only of a file that it changes. -/
theorem warnedChanges (fixer : Fixer) (path : Path) (diagnostics : List Diagnostic)
    (progress : Progress) :
    let (result, after) := (fixFile fixer path diagnostics).run progress
    after.files.bytesOf path = progress.files.bytesOf path →
      after.warnings = progress.warnings ∨ ∃ error, result = .error (.write path error) := by
  cases readable : progress.files.readText path with
  | error error =>
    rw [fixFileUnreadable fixer diagnostics readable]
    exact fun _ => .inl rfl
  | ok found =>
    obtain ⟨location, text⟩ := found
    by_cases takes : progress.files.Takes location text.toList
        (patched fixer diagnostics text.toList)
    · rw [fixFileReadable fixer diagnostics readable takes]
      intro sameBytes
      rw [FileTree.bytesOfReadable (readTextPatched fixer diagnostics readable),
        FileTree.bytesOfReadable readable, Except.ok.injEq] at sameBytes
      have unchanged : patched fixer diagnostics text.toList = text.toList := by
        have sameText := congrArg String.toList (encodedInjective sameBytes)
        rwa [String.toList_ofList] at sameText
      have nothing := unchangedAwaitsNothing fixer text.toList diagnostics unchanged
      exact .inl (by simp [warningsOf, nothing])
    · obtain ⟨changed, error, refused⟩ := FileTree.notTakes_iff.mp takes
      rw [fixFileRefused fixer diagnostics readable changed refused]
      exact fun _ => .inr ⟨error, rfl⟩

/-- Of the dynamic imports that a conversion awaits, those that are now awaited twice are counted.
There are no more of them than replacements, and a repair warns of them only in a file that it
changes or cannot write. When no two dynamic imports overlap, the count is that of the imports behind
the whole word `await` and white space. -/
theorem doubleAwaitsCounted (text : List Char) :
    let between := ImportConversion.declared text
    let conversion := ImportConversion.ofText text
    conversion.doubleAwaited ≤ (occurrences dynamic between).length ∧
      (occurrences dynamic between).length ≤ conversion.replacements ∧
      (∀ path diagnostics progress,
        let (result, after) := (fixFile .requireImports path diagnostics).run progress
        after.files.bytesOf path = progress.files.bytesOf path →
          after.warnings = progress.warnings ∨ ∃ error, result = .error (.write path error)) ∧
      (Apart dynamic between → conversion.doubleAwaited =
        ((spans dynamic between).filter fun span =>
          FollowsAwait (between.take span.start)).length) := by
  intro between conversion
  refine ⟨awaitedBound between, ?_, warnedChanges .requireImports, awaitedExact⟩
  simp only [between, conversion, ImportConversion.ofText]
  omega

/-- A file that may be read but not written. -/
def protectedFiles (text : String) : FileTree where
  entries := [(["app"], .directory),
    (["app", "a.ts"], .file (encoded text) { writing := .refused .permissionDenied })]
  workingDirectory := ["app"]

-- The warning comes before the attempt to write.
example :
    let outcome := (fixFile .requireImports ⟨"a.ts"⟩ declarationReport).run
      (.start (protectedFiles "await import('m');"))
    outcome.1 = .error (.write ⟨"a.ts"⟩ .permissionDenied) ∧
      outcome.2 = ⟨protectedFiles "await import('m');", [], [⟨⟨"a.ts"⟩, 1⟩]⟩ := by
  decide +kernel

/-- Of these three imports the first stands behind the word `await`, and the second behind a word
that ends in it. -/
def awaitedText : List Char :=
  "await import('a'); xawait import(\"b\"); import('c')".toList

theorem awaitedTextCounted :
    Apart dynamic (ImportConversion.declared awaitedText) ∧
      (ImportConversion.ofText awaitedText).doubleAwaited = 1 ∧
      ((spans dynamic (ImportConversion.declared awaitedText)).filter fun span =>
        FollowsAwait ((ImportConversion.declared awaitedText).take span.start)).length = 1 := by
  have apart : Apart dynamic (ImportConversion.declared awaitedText) :=
    (apart_iff dynamicConsumes).mpr (by decide)
  have counted : (ImportConversion.ofText awaitedText).doubleAwaited = 1 := by decide
  obtain ⟨-, -, -, exactly⟩ := doubleAwaitsCounted awaitedText
  exact ⟨apart, counted, (exactly apart).symm.trans counted⟩

end LintRepair.Run
