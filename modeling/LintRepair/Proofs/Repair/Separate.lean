/-
This file describes the repair of files that are separate, so that no patch is seen by another
group: what becomes of each file, and which diagnostics are answered at each line.
-/

import LintRepair.Proofs.Repair.Distinct

namespace LintRepair

namespace Run

/-- The path of every diagnostic names a readable text, and paths with different components name
different files. -/
structure Separate (files : FileTree) (diagnostics : List Diagnostic) : Prop where
  readable : ∀ diagnostic ∈ diagnostics, ∃ location text,
    files.readText diagnostic.file = .ok (location, text)
  distinct : ∀ left ∈ diagnostics, ∀ right ∈ diagnostics,
    left.file.components ≠ right.file.components →
      files.resolve left.file ≠ files.resolve right.file

/-- Every line of a file goes through the edits of the diagnostics that stand there. -/
theorem answeredLineEdit {fixer : Fixer} {edit : LineEdit} (safe : edit.Safe)
    (patches : fixer.patch = Patch.ofLineEdit edit) (diagnostics : List Diagnostic) (path : Path)
    (text : List Char) : answered fixer diagnostics path text =
      ((Buffer.ofText text).mapTexts fun number line =>
        (Diagnostic.atLine diagnostics path number).foldl edit.step line).contents := by
  simp only [← Diagnostic.filterPathLine, answered]
  split
  · next nothing => simp [nothing, Buffer.mapTextsId, Buffer.contentsOfText]
  · rw [patched, patches, Patch.lineEditResult safe, LineEdit.applyBuffer]

/-- The files after the repair of all groups of some diagnostics. -/
def filesAnswered (fixer : Fixer) (files : FileTree) (diagnostics : List Diagnostic) : FileTree :=
  (FileGroup.ofDiagnostics diagnostics).foldl (filesAfterGroup fixer) files

theorem filesAnsweredUpdates (fixer : Fixer) (files : FileTree) (diagnostics : List Diagnostic) :
    files.Updates (fun location text =>
        (FileGroup.ofDiagnostics diagnostics).foldl (groupChange fixer files location) text)
      (filesAnswered fixer files diagnostics) :=
  filesAfterGroupsUpdates fixer files (FileGroup.ofDiagnostics diagnostics)

/-- The diagnostics that a fixer resolves, group by group. -/
def resolved (fixer : Fixer) (files : FileTree) (diagnostics : List Diagnostic) :
    List Diagnostic :=
  (FileGroup.ofDiagnostics diagnostics).flatMap fun group => (groupPatch fixer files group).fixed

namespace Separate

variable {files : FileTree} {diagnostics : List Diagnostic}

theorem subset (separate : Separate files diagnostics) {chosen : List Diagnostic}
    (inside : chosen ⊆ diagnostics) : Separate files chosen :=
  ⟨fun diagnostic given => separate.readable diagnostic (inside given),
    fun left isLeft right isRight => separate.distinct left (inside isLeft) right (inside isRight)⟩

theorem updates {change : Location → List Char → List Char} {after : FileTree}
    (separate : Separate files diagnostics) (updates : files.Updates change after) :
    Separate after diagnostics := by
  refine ⟨fun diagnostic given => ?_, fun left isLeft right isRight => ?_⟩
  · obtain ⟨location, text, read⟩ := separate.readable diagnostic given
    exact ⟨location, _, updates.readText read⟩
  · rw [updates.resolve, updates.resolve]
    exact separate.distinct left isLeft right isRight

/-- Two spellings of one path lead to one place. -/
theorem sameResolve (separate : Separate files diagnostics) {left right : Diagnostic}
    (isLeft : left ∈ diagnostics) (isRight : right ∈ diagnostics)
    (same : left.file.components = right.file.components) :
    files.resolve left.file = files.resolve right.file := by
  obtain ⟨leftLocation, leftText, leftRead⟩ := separate.readable left isLeft
  obtain ⟨rightLocation, rightText, rightRead⟩ := separate.readable right isRight
  obtain ⟨leftLeads, -⟩ := FileTree.readText_eq_ok_iff.mp leftRead
  obtain ⟨rightLeads, -⟩ := FileTree.readText_eq_ok_iff.mp rightRead
  rw [leftLeads, rightLeads, FileTree.resolveSameComponents same leftLeads rightLeads]

theorem readableGroups {groups : List FileGroup} (separate : Separate files diagnostics)
    (partitions : FileGroup.Partitions groups diagnostics) : Readable files groups := by
  intro group inside
  obtain ⟨diagnostic, given, path⟩ := partitions.pathInside inside
  exact path ▸ separate.readable diagnostic given

theorem isDistinct (separate : Separate files diagnostics) : Distinct files diagnostics :=
  fun left isLeft right isRight different _ first second =>
    separate.distinct left isLeft right isRight different (first.trans second.symm)

theorem apart (separate : Separate files diagnostics) :
    GroupsApart files (FileGroup.ofDiagnostics diagnostics) :=
  separate.isDistinct.apart (List.Subset.refl _) (List.append_nil _).symm

/-- Every group can be answered when every file takes its new text. -/
theorem answerable (separate : Separate files diagnostics) {fixer : Fixer}
    (takes : ∀ diagnostic ∈ diagnostics, ∀ location text,
      files.readText diagnostic.file = .ok (location, text) → files.Takes location text.toList
        (answered fixer diagnostics diagnostic.file text.toList)) :
    Answerable fixer files (FileGroup.ofDiagnostics diagnostics) := by
  refine answerableApart separate.apart fun group inside => ?_
  obtain ⟨diagnostic, given, path⟩ :=
    (FileGroup.ofDiagnosticsPartitions diagnostics).pathInside inside
  obtain ⟨location, text, read⟩ := separate.readable diagnostic given
  refine ⟨location, text, path ▸ read, ?_⟩
  rw [patchedGroup fixer inside, ← path]
  exact takes diagnostic given location text read

/-- No group sees what another made of its file. -/
theorem groupPatchesApart (fixer : Fixer) {groups : List FileGroup}
    (apart : GroupsApart files groups) : groupPatches fixer files groups =
      groups.map fun group => (group, groupPatch fixer files group) := by
  induction groups generalizing files with
  | nil => rfl
  | cons group groups inductionHypothesis =>
    obtain ⟨elsewhere, tail⟩ := List.pairwise_cons.mp apart
    have updates := filesAfterGroupUpdates fixer files group
    have apartAfter : GroupsApart (filesAfterGroup fixer files group) groups := by
      simpa only [GroupsApart, updates.place] using tail
    rw [groupPatches, inductionHypothesis apartAfter, List.map_cons]
    refine congrArg _ (List.map_congr_left fun other inside => ?_)
    have same := readTextElsewhereOne fixer fun place leads own =>
      elsewhere other inside place own leads
    simp only [groupPatch, FileTree.textOf, same]

theorem fixGroupsSeparate (separate : Separate files diagnostics) {fixer : Fixer}
    (answerable : Answerable fixer files (FileGroup.ofDiagnostics diagnostics))
    (notices : List Notice) (warnings : List Warning) :
    (fixGroups fixer (FileGroup.ofDiagnostics diagnostics)).run ⟨files, notices, warnings⟩ =
      (.ok (resolved fixer files diagnostics),
        ⟨filesAnswered fixer files diagnostics,
          notices ++ (FileGroup.ofDiagnostics diagnostics).map fun group =>
            .fixing fixer.name group.path,
          warnings ++ (FileGroup.ofDiagnostics diagnostics).flatMap fun group =>
            warningsOf group.path (groupPatch fixer files group)⟩) := by
  rw [fixGroupsAnswerable notices warnings answerable, groupPatchesApart fixer separate.apart]
  simp only [List.flatMap_map, resolved, filesAnswered]

theorem prefixGroupsSeparate (separate : Separate files diagnostics)
    (answerable : Answerable .unusedParameters files (FileGroup.ofDiagnostics diagnostics))
    (notices : List Notice) (warnings : List Warning) :
    (prefixGroups (FileGroup.ofDiagnostics diagnostics)).run ⟨files, notices, warnings⟩ =
      (.ok (resolved .unusedParameters files diagnostics).length,
        ⟨filesAnswered .unusedParameters files diagnostics,
          notices ++ ((FileGroup.ofDiagnostics diagnostics).flatMap fun group =>
            Diagnostic.ascending (groupPatch .unusedParameters files group).fixed).map .prefixed,
          warnings ++ (FileGroup.ofDiagnostics diagnostics).flatMap fun group =>
            warningsOf group.path (groupPatch .unusedParameters files group)⟩) := by
  rw [prefixGroupsAnswerable notices warnings answerable,
    groupPatchesApart .unusedParameters separate.apart]
  simp only [List.flatMap_map, resolved, filesAnswered]

theorem readTextAnswered {all : List Diagnostic} (separate : Separate files all) (fixer : Fixer)
    (given : diagnostics ⊆ all) {diagnostic : Diagnostic} (isGiven : diagnostic ∈ all)
    {location : Location} {text : String}
    (readable : files.readText diagnostic.file = .ok (location, text)) :
    (filesAnswered fixer files diagnostics).readText diagnostic.file =
      .ok (location, String.ofList (answered fixer diagnostics diagnostic.file text.toList)) := by
  have groups := (separate.subset given).readableGroups
    (FileGroup.ofDiagnosticsPartitions diagnostics)
  obtain ⟨leads, -⟩ := FileTree.readText_eq_ok_iff.mp readable
  rw [(filesAnsweredUpdates fixer files diagnostics).readText readable,
    separate.isDistinct.changeAll given groups fixer isGiven leads]

theorem textOfAnswered {all : List Diagnostic} (separate : Separate files all) (fixer : Fixer)
    (given : diagnostics ⊆ all) {diagnostic : Diagnostic} (isGiven : diagnostic ∈ all) :
    (filesAnswered fixer files diagnostics).textOf diagnostic.file =
      answered fixer diagnostics diagnostic.file (files.textOf diagnostic.file) := by
  obtain ⟨location, text, read⟩ := separate.readable diagnostic isGiven
  rw [FileTree.textOfReadable (separate.readTextAnswered fixer given isGiven read),
    FileTree.textOfReadable read, String.toList_ofList]

/-- A location to which no diagnostic's path leads stays as it is. -/
theorem entryAnswered (fixer : Fixer) {location : Location}
    (elsewhere : ∀ diagnostic ∈ diagnostics,
      files.resolve diagnostic.file ≠ .ok location) :
    (filesAnswered fixer files diagnostics).entryAt? location = files.entryAt? location := by
  refine (filesAnsweredUpdates fixer files diagnostics).entrySame fun text => ?_
  refine FileGroup.foldlStays (fun group inside old => if_neg fun place => ?_) text
  obtain ⟨first, isFirst, path⟩ := (FileGroup.ofDiagnosticsPartitions diagnostics).pathInside inside
  exact elsewhere first isFirst (path ▸ FileTree.place_eq_some_iff.mp place)

/-- The resolved diagnostics are some of the given ones. -/
theorem resolvedSubperm (fixer : Fixer) (files : FileTree) (diagnostics : List Diagnostic) :
    (resolved fixer files diagnostics).Subperm diagnostics :=
  (FileGroup.ofDiagnosticsPartitions diagnostics).flatMapSubperm fun group _ =>
    fixer.patchSubperm (files.textOf group.path) group.diagnostics

/-- Two spellings of one path name one text. -/
theorem sameText (separate : Separate files diagnostics) {left right : Diagnostic}
    (isLeft : left ∈ diagnostics) (isRight : right ∈ diagnostics)
    (same : left.file.components = right.file.components) :
    files.textOf left.file = files.textOf right.file := by
  simp only [FileTree.textOf, FileTree.readText, separate.sameResolve isLeft isRight same]

/-- At each line of a file the diagnostics resolved by a line edit are those that changed the line
one after the other, even if they are told in another order of the lines. -/
theorem lineEditAtLine {edit : LineEdit} (safe : edit.Safe)
    (separate : Separate files diagnostics) (sort : List Diagnostic → List Diagnostic)
    (stable : ∀ fixed number, (sort fixed).filter (fun diagnostic => diagnostic.line = number) =
      fixed.filter fun diagnostic => diagnostic.line = number) {diagnostic : Diagnostic}
    (given : diagnostic ∈ diagnostics) (number : Nat) :
    Diagnostic.atLine ((FileGroup.ofDiagnostics diagnostics).flatMap fun group =>
        sort (edit.apply (Buffer.ofText (files.textOf group.path)) group.diagnostics).2)
        diagnostic.file number =
      (((Buffer.ofText (files.textOf diagnostic.file)).line? number).map fun line =>
        edit.changes line (Diagnostic.atLine diagnostics diagnostic.file number)).getD [] := by
  have partitions := FileGroup.ofDiagnosticsPartitions diagnostics
  obtain ⟨group, inside, same⟩ := partitions.covers diagnostic given
  obtain ⟨first, isFirst, path⟩ := partitions.pathInside inside
  have own : ∀ group ∈ FileGroup.ofDiagnostics diagnostics,
      sort (edit.apply (Buffer.ofText (files.textOf group.path)) group.diagnostics).2 ⊆
        group.diagnostics := by
    intro group _ other isOther
    have onLine : other ∈ (sort (edit.apply (Buffer.ofText (files.textOf group.path))
        group.diagnostics).2).filter fun diagnostic => diagnostic.line = other.line := by
      simp [isOther]
    rw [stable] at onLine
    exact (edit.applySubperm _ group.diagnostics).subset (List.mem_of_mem_filter onLine)
  have sameText : files.textOf group.path = files.textOf diagnostic.file := by
    rw [← path]
    exact separate.sameText isFirst given (by rw [path, same])
  have sameMembers : group.diagnostics.filter (fun other => other.line = number) =
      Diagnostic.atLine diagnostics group.path number := by
    rw [partitions.members group inside, Diagnostic.filterPathLine]
  have samePath : ∀ chosen, Diagnostic.atLine chosen diagnostic.file number =
      Diagnostic.atLine chosen group.path number := by
    intro chosen
    rw [Diagnostic.atLine, Diagnostic.atLine, same]
  rw [samePath, samePath, partitions.atLineOfFlatMap own inside, stable, LineEdit.applyFixed safe,
    sameMembers, sameText]

end Separate

end Run

end LintRepair
