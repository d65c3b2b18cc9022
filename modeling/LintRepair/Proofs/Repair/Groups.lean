/-
This file follows the repair of several groups of diagnostics, file by file: which patches are made
on the way, what they make of the files together, and how the repair stops on the way.
-/

import LintRepair.Proofs.Diagnostic.FileGroup
import LintRepair.Proofs.Repair.FixFile
import LintRepair.Repair.Lint
import LintRepair.Repair.Parameters

namespace LintRepair

namespace FileTree

/-- The location to which a path leads, if it leads to one. -/
def place? (tree : FileTree) (path : Path) : Option Location :=
  (tree.resolve path).toOption

theorem place_eq_some_iff {tree : FileTree} {path : Path} {location : Location} :
    tree.place? path = some location ↔ tree.resolve path = .ok location := by
  unfold place?
  cases tree.resolve path <;> simp [Except.toOption]

theorem Updates.place {change : Location → List Char → List Char} {before after : FileTree}
    (updates : Updates change before after) (path : Path) :
    after.place? path = before.place? path := by
  rw [place?, place?, updates.resolve]

end FileTree

namespace Run

/-- The patch of a group's file as the file is now. -/
def groupPatch (fixer : Fixer) (files : FileTree) (group : FileGroup) : Patch :=
  fixer.patch (files.textOf group.path) group.diagnostics

/-- The files after the repair of a group's file. -/
def filesAfterGroup (fixer : Fixer) (files : FileTree) (group : FileGroup) : FileTree :=
  match files.readText group.path with
  | .ok (location, _) => filesAfter files location (groupPatch fixer files group)
  | .error _ => files

/-- The patches of several groups, each of the file as the groups before left it. -/
def groupPatches (fixer : Fixer) : FileTree → List FileGroup → List (FileGroup × Patch)
  | _, [] => []
  | files, group :: groups =>
    (group, groupPatch fixer files group) ::
      groupPatches fixer (filesAfterGroup fixer files group) groups

/-- What one group makes of the text at a location. -/
def groupChange (fixer : Fixer) (files : FileTree) (location : Location) (text : List Char)
    (group : FileGroup) : List Char :=
  if files.place? group.path = some location then patched fixer group.diagnostics text else text

variable (fixer : Fixer)

theorem groupChangeEmpty (files : FileTree) (location : Location) (group : FileGroup) :
    groupChange fixer files location [] group = [] := by
  rw [groupChange, patchedEmpty, ite_self]

theorem filesAfterGroupUpdates (files : FileTree) (group : FileGroup) :
    files.Updates (fun location text => groupChange fixer files location text group)
      (filesAfterGroup fixer files group) := by
  have empty := fun location => groupChangeEmpty fixer files location group
  unfold filesAfterGroup groupPatch
  cases readable : files.readText group.path with
  | ok found =>
    obtain ⟨place, text⟩ := found
    obtain ⟨leads, -⟩ := FileTree.readText_eq_ok_iff.mp readable
    simp only [FileTree.textOfReadable readable]
    refine (filesAfterUpdates fixer group.diagnostics readable).congr empty
      fun location old _ _ => ?_
    simp only [groupChange, FileTree.place_eq_some_iff, leads, Except.ok.injEq]
    exact if_congr eq_comm rfl rfl
  | error error =>
    refine (FileTree.updatesRefl files).congr empty fun location text writing known => ?_
    -- A text at the location would have been read.
    have elsewhere : files.place? group.path ≠ some location := by
      intro place
      have read : files.readText group.path = .ok (location, text) :=
        FileTree.readText_eq_ok_iff.mpr
          ⟨FileTree.place_eq_some_iff.mp place, FileTree.contentOfText known⟩
      rw [readable] at read
      cases read
    rw [groupChange, if_neg elsewhere]

theorem groupChangeUpdated {change : Location → List Char → List Char} {files after : FileTree}
    (updates : files.Updates change after) :
    groupChange fixer after = groupChange fixer files := by
  funext location text group
  rw [groupChange, groupChange, updates.place]

/-- Every location goes through the changes of the groups in their order. -/
theorem filesAfterGroupsUpdates (files : FileTree) (groups : List FileGroup) :
    files.Updates (fun location text => groups.foldl (groupChange fixer files location) text)
      (groups.foldl (filesAfterGroup fixer) files) := by
  induction groups generalizing files with
  | nil => exact FileTree.updatesRefl files
  | cons group groups inductionHypothesis =>
    have first := filesAfterGroupUpdates fixer files group
    have rest := inductionHypothesis (filesAfterGroup fixer files group)
    rw [groupChangeUpdated fixer first] at rest
    exact first.trans rest

/-- Whether the file of every group can be read. -/
def Readable (files : FileTree) (groups : List FileGroup) : Prop :=
  ∀ group ∈ groups, ∃ location text, files.readText group.path = .ok (location, text)

/-- The file of a group can be read, and it takes what the repair makes of its text. -/
def Answers (files : FileTree) (group : FileGroup) : Prop :=
  ∃ location text, files.readText group.path = .ok (location, text) ∧
    files.Takes location text.toList (patched fixer group.diagnostics text.toList)

/-- Every group can be answered when the groups before it have been answered. -/
def Answerable : FileTree → List FileGroup → Prop
  | _, [] => True
  | files, group :: groups =>
    Answers fixer files group ∧ Answerable (filesAfterGroup fixer files group) groups

/-- How the repair of a group's file stops, and the files that it leaves: the file cannot be read, or
it does not take its new text, a part of which may have been written. -/
inductive Stops (files : FileTree) (group : FileGroup) : RunError → FileTree → Prop
  | unreadable {error : FileError} (unread : files.readText group.path = .error error) :
      Stops files group (.read group.path error) files
  | refused {location : Location} {text : String} {error : FileError}
      (read : files.readText group.path = .ok (location, text))
      (changed : patched fixer group.diagnostics text.toList ≠ text.toList)
      (refuses : files.writeError? location
        (encoded (String.ofList (patched fixer group.diagnostics text.toList))) = some error) :
      Stops files group (.write group.path error) (files.write location
        (encoded (String.ofList (patched fixer group.diagnostics text.toList))))

section

variable {fixer} {files : FileTree} {group : FileGroup} (notices : List Notice)
  (warnings : List Warning)

/-- The repair of one group's file, in terms of its patch. -/
theorem fixFileGroup (answers : Answers fixer files group) :
    (fixFile fixer group.path group.diagnostics).run ⟨files, notices, warnings⟩ =
      (.ok (groupPatch fixer files group).fixed,
        ⟨filesAfterGroup fixer files group, notices,
          warnings ++ warningsOf group.path (groupPatch fixer files group)⟩) := by
  obtain ⟨location, text, read, takes⟩ := answers
  refine Eq.trans (fixFileReadable fixer group.diagnostics read takes) ?_
  simp only [filesAfterGroup, groupPatch, read, FileTree.textOfReadable read]

theorem fixFileStops {error : RunError} {after : FileTree}
    (stops : Stops fixer files group error after) :
    ∃ given, (fixFile fixer group.path group.diagnostics).run ⟨files, notices, warnings⟩ =
      (.error error, ⟨after, notices, given⟩) := by
  cases stops with
  | unreadable unread => exact ⟨_, fixFileUnreadable fixer group.diagnostics unread⟩
  | refused read changed refuses =>
    exact ⟨_, fixFileRefused fixer group.diagnostics read changed refuses⟩

/-- When every group can be answered, each is told and answered. -/
theorem fixGroupsAnswerable {groups : List FileGroup} (answerable : Answerable fixer files groups) :
    (fixGroups fixer groups).run ⟨files, notices, warnings⟩ =
      (.ok ((groupPatches fixer files groups).flatMap fun answer => answer.2.fixed),
        ⟨groups.foldl (filesAfterGroup fixer) files,
          notices ++ groups.map fun group => .fixing fixer.name group.path,
          warnings ++ (groupPatches fixer files groups).flatMap fun answer =>
            warningsOf answer.1.path answer.2⟩) := by
  induction groups generalizing files notices warnings with
  | nil => simp [fixGroups, groupPatches]
  | cons group groups inductionHypothesis =>
    obtain ⟨answers, rest⟩ := answerable
    simp only [fixGroups, runBind, runTell, runPure, fixFileGroup _ _ answers,
      inductionHypothesis _ _ rest, groupPatches, List.flatMap_cons, List.foldl_cons, List.map_cons,
      List.append_assoc, List.singleton_append]

/-- The repair stops at the first group that cannot be answered, behind the line that tells of it. -/
theorem fixGroupsStopped {groups before behind : List FileGroup} {error : RunError}
    {after : FileTree} (order : groups = before ++ group :: behind)
    (answerable : Answerable fixer files before)
    (stops : Stops fixer (before.foldl (filesAfterGroup fixer) files) group error after) :
    ∃ given, (fixGroups fixer groups).run ⟨files, notices, warnings⟩ =
      (.error error, ⟨after,
        notices ++ (before ++ [group]).map fun group => .fixing fixer.name group.path, given⟩) := by
  subst order
  induction before generalizing files notices warnings with
  | nil =>
    obtain ⟨given, runs⟩ := fixFileStops (notices ++ [.fixing fixer.name group.path]) warnings stops
    refine ⟨given, ?_⟩
    simp only [List.foldl_nil] at runs
    simp only [List.nil_append, fixGroups, runBind, runTell, runs, List.map_cons, List.map_nil]
  | cons first before inductionHypothesis =>
    obtain ⟨answers, rest⟩ := answerable
    obtain ⟨given, runs⟩ := inductionHypothesis (notices ++ [.fixing fixer.name first.path])
      (warnings ++ warningsOf first.path (groupPatch fixer files first)) rest stops
    refine ⟨given, ?_⟩
    simp only [List.cons_append, fixGroups, runBind, runTell, fixFileGroup _ _ answers, runs,
      List.map_cons, List.append_assoc, List.nil_append]

/-- When every group can be answered, each is answered and its renamed parameters are told. -/
theorem prefixGroupsAnswerable {groups : List FileGroup}
    (answerable : Answerable .unusedParameters files groups) :
    (prefixGroups groups).run ⟨files, notices, warnings⟩ =
      (.ok ((groupPatches .unusedParameters files groups).flatMap
          fun answer => answer.2.fixed).length,
        ⟨groups.foldl (filesAfterGroup .unusedParameters) files,
          notices ++ ((groupPatches .unusedParameters files groups).flatMap
            fun answer => Diagnostic.ascending answer.2.fixed).map .prefixed,
          warnings ++ (groupPatches .unusedParameters files groups).flatMap
            fun answer => warningsOf answer.1.path answer.2⟩) := by
  induction groups generalizing files notices warnings with
  | nil => simp [prefixGroups, groupPatches]
  | cons group groups inductionHypothesis =>
    obtain ⟨answers, rest⟩ := answerable
    simp only [prefixGroups, runBind, runTell, runPure, fixFileGroup _ _ answers,
      inductionHypothesis _ _ rest, groupPatches, List.flatMap_cons, List.foldl_cons,
      List.map_append, List.length_append, List.append_assoc]

end

end Run

end LintRepair
