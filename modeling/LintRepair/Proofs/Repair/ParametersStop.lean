/-
This file follows a parameter repair that cannot be finished: which groups were answered, and which
renamed parameters were told.
-/

import LintRepair.Proofs.Repair.Parameters

namespace LintRepair

namespace Run

/-- The diagnostics of some groups. -/
def within (groups : List FileGroup) (diagnostics : List Diagnostic) : List Diagnostic :=
  diagnostics.filter fun diagnostic =>
    ∃ group ∈ groups, diagnostic.file.components = group.path.components

/-- Whether the unread parameters of a path can be renamed. -/
def Renamable (files : FileTree) (diagnostics : List Diagnostic) (path : Path) : Prop :=
  Feasible files path id (prefixedText diagnostics path)

/-- A parameter repair has answered some groups, which leave some files between, and stops at the next
one. What it has told are the renamed parameters of the groups before. -/
structure ParametersStop (files : FileTree) (output : List UInt8) (answered : List FileGroup)
    (stopped : FileGroup) (told : List Diagnostic) (error : RunError) (between after : FileTree) :
    Prop where
  order : ∃ behind,
    FileGroup.ofDiagnostics (existingUnread files output) = answered ++ stopped :: behind
  renamable : ∀ group ∈ answered, Renamable files (existingUnread files output) group.path
  prefixes : Prefixes (within answered (existingUnread files output)) told files between
  fails : Fails files between stopped.path id
    (prefixedText (existingUnread files output) stopped.path) error after
  run : ∃ progress, (parameters output).run (.start files) = (.error error, progress) ∧
    progress.files = after ∧
    Notice.lines progress.notices = told.map Diagnostic.fixedLine ++ [""]

theorem renamingPatches {diagnostics : List Diagnostic} {group : FileGroup}
    (inside : group ∈ FileGroup.ofDiagnostics diagnostics) (text : List Char) :
    patched .unusedParameters group.diagnostics text =
      prefixedText diagnostics group.path text :=
  (patchedGroup .unusedParameters inside text).trans (answeredPrefixed diagnostics group.path text)

/-- Groups are answered one part after the other. -/
theorem prefixGroupsAppend (front back : List FileGroup) :
    prefixGroups (front ++ back) = do
      let first ← prefixGroups front
      let second ← prefixGroups back
      return first + second := by
  induction front with
  | nil => simp only [List.nil_append, prefixGroups, pure_bind, Nat.zero_add, bind_pure]
  | cons group front inductionHypothesis =>
    simp only [List.cons_append, prefixGroups, inductionHypothesis, bind_assoc, pure_bind,
      Nat.add_assoc]

section

variable {files : FileTree} {output : List UInt8}

/-- Existing paths with the same components are read alike. -/
theorem existingReadText {left right : Diagnostic}
    (isLeft : left ∈ existingUnread files output) (isRight : right ∈ existingUnread files output)
    (same : left.file.components = right.file.components) :
    files.readText left.file = files.readText right.file := by
  have leads : ∀ diagnostic ∈ existingUnread files output, ∃ location,
      files.resolve diagnostic.file = .ok location := by
    intro diagnostic given
    have exists' := (List.mem_filter.mp given).2
    cases found : files.resolve diagnostic.file with
    | error error => simp [FileTree.pathExists, found, Except.isOk, Except.toBool] at exists'
    | ok location => exact ⟨location, rfl⟩
  obtain ⟨leftLocation, leftLeads⟩ := leads left isLeft
  obtain ⟨rightLocation, rightLeads⟩ := leads right isRight
  have sameLocation := FileTree.resolveSameComponents same leftLeads rightLeads
  simp only [FileTree.readText, leftLeads, rightLeads, sameLocation]

/-- Existing paths with the same components are renamable alike. -/
theorem existingRenamable {left right : Diagnostic}
    (isLeft : left ∈ existingUnread files output) (isRight : right ∈ existingUnread files output)
    (same : left.file.components = right.file.components)
    (renamable : Renamable files (existingUnread files output) right.file) :
    Renamable files (existingUnread files output) left.file := by
  obtain ⟨location, text, read, takes⟩ := renamable
  have sameText : prefixedText (existingUnread files output) left.file =
      prefixedText (existingUnread files output) right.file := by
    funext text
    simp only [prefixedText, Diagnostic.atLine, same]
  exact ⟨location, text, (existingReadText isLeft isRight same).trans read, sameText ▸ takes⟩

namespace Distinct

variable {before behind : List FileGroup}

/-- Of distinct existing files those of the first groups are separate, if they can be read. -/
theorem separateWithin (distinct : Distinct files (existingUnread files output))
    (groups : FileGroup.ofDiagnostics (existingUnread files output) = before ++ behind)
    (readable : Readable files before) :
    Separate files (within before (existingUnread files output)) := by
  have partitions := FileGroup.ofDiagnosticsPartitions (existingUnread files output)
  have reads : ∀ diagnostic ∈ within before (existingUnread files output), ∃ location text,
      files.readText diagnostic.file = .ok (location, text) := by
    intro diagnostic given
    obtain ⟨isGiven, stands⟩ := List.mem_filter.mp given
    obtain ⟨group, inside, same⟩ := of_decide_eq_true stands
    obtain ⟨first, isFirst, path⟩ := partitions.pathInside
      (groups.symm ▸ List.mem_append_left behind inside)
    rw [existingReadText isGiven isFirst (by rw [path, same]), path]
    exact readable group inside
  refine ⟨reads, fun left isLeft right isRight different sameLead => ?_⟩
  obtain ⟨location, text, read⟩ := reads left isLeft
  obtain ⟨leads, -⟩ := FileTree.readText_eq_ok_iff.mp read
  exact distinct left (List.mem_of_mem_filter isLeft) right (List.mem_of_mem_filter isRight)
    different location leads (sameLead ▸ leads)

theorem renames (distinct : Distinct files (existingUnread files output))
    (groups : FileGroup.ofDiagnostics (existingUnread files output) = before ++ behind)
    (renamable : ∀ group ∈ before, Renamable files (existingUnread files output) group.path) :
    Answerable .unusedParameters files before :=
  distinct.answerable (List.Subset.refl _) groups (FileTree.updatesRefl files)
    (fun _ _ _ _ _ => rfl)
    (fun _ inside => renamingPatches (groups ▸ List.mem_append_left behind inside)) renamable

/-- A renaming that cannot be made stops the repair when those before it have been made. -/
theorem stopsRenaming (distinct : Distinct files (existingUnread files output)) {group : FileGroup}
    (groups : FileGroup.ofDiagnostics (existingUnread files output) = before ++ group :: behind)
    (impossible : ¬ Renamable files (existingUnread files output) group.path) :
    ∃ error after,
      Fails files (before.foldl (filesAfterGroup .unusedParameters) files) group.path id
        (prefixedText (existingUnread files output) group.path) error after ∧
      Stops .unusedParameters (before.foldl (filesAfterGroup .unusedParameters) files) group error
        after := by
  have isGroup : group ∈ FileGroup.ofDiagnostics (existingUnread files output) :=
    groups ▸ List.mem_append_right before List.mem_cons_self
  exact distinct.stops (List.Subset.refl _) groups (FileTree.updatesRefl files) (fun _ _ _ => rfl)
    (renamingPatches isGroup) impossible

/-- A parameter repair stops at the first group that cannot be answered. -/
theorem parametersStop (distinct : Distinct files (existingUnread files output))
    (impossible : ∃ diagnostic ∈ existingUnread files output,
      ¬ Renamable files (existingUnread files output) diagnostic.file) :
    ∃ answered stopped told error between after,
      ParametersStop files output answered stopped told error between after := by
  have partitions := FileGroup.ofDiagnosticsPartitions (existingUnread files output)
  rcases allOrFirst
      (fun group => Renamable files (existingUnread files output) group.path)
      (FileGroup.ofDiagnostics (existingUnread files output)) with
    all | ⟨before, group, behind, groups, renamable, stops⟩
  · -- Every diagnostic is renamable like the first of its group.
    obtain ⟨diagnostic, given, fails⟩ := impossible
    obtain ⟨group, inside, same⟩ := partitions.covers diagnostic given
    obtain ⟨first, isFirst, path⟩ := partitions.pathInside inside
    refine absurd (existingRenamable given isFirst (by rw [path, same]) ?_) fails
    rw [path]
    exact all group inside
  · have answerable := distinct.renames groups renamable
    have separate := distinct.separateWithin groups fun group inside =>
      (renamable group inside).readable
    have front : FileGroup.ofDiagnostics (within before (existingUnread files output)) = before :=
      (FileGroup.ofDiagnosticsPartitions _).unique (groups ▸ partitions).front
    have between : filesAnswered .unusedParameters files
        (within before (existingUnread files output)) =
          before.foldl (filesAfterGroup .unusedParameters) files := by
      rw [filesAnswered, front]
    obtain ⟨error, after, fails, stopped⟩ := distinct.stopsRenaming groups stops
    rw [← between] at fails stopped
    obtain ⟨given, answers⟩ : ∃ given, (prefixGroups before).run ⟨files, [], []⟩ =
        (.ok (resolved .unusedParameters files (within before (existingUnread files output))).length,
          ⟨filesAnswered .unusedParameters files (within before (existingUnread files output)),
            (renamed files (within before (existingUnread files output))).map .prefixed, given⟩) := by
      have answers := separate.prefixGroupsSeparate (by rwa [front]) [] []
      rw [front] at answers
      rw [renamed, front]
      exact ⟨_, answers⟩
    obtain ⟨warnings, stopsRun⟩ := fixFileStops
      ((renamed files (within before (existingUnread files output))).map .prefixed) given stopped
    refine ⟨before, group, _, error, _, after, ⟨behind, groups⟩, renamable, separate.prefixes, fails,
      ⟨after, (renamed files (within before (existingUnread files output))).map .prefixed, warnings⟩,
      ?_, rfl, ?_⟩
    · simp only [parameters, Progress.start, runBind, runGet, groups, prefixGroupsAppend, answers,
        prefixGroups, stopsRun]
    · have existing : within before (existingUnread files output) ⊆ existingUnread files output :=
        fun _ => List.mem_of_mem_filter
      have oneLine : ∀ diagnostic ∈ renamed files (within before (existingUnread files output)),
          '\n' ∉ diagnostic.fixedLine.toList := fun diagnostic isTold =>
        existingOneLine (existing (separate.prefixes.chosen.subset isTold))
      have tells := Notice.prefixedLines oneLine []
      rwa [List.append_nil] at tells

end Distinct

end

end Run

end LintRepair
