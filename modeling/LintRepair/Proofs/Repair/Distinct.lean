/-
This file describes what some groups make of the files when different paths lead to different
places: each file is changed by the group of its own path and by no other.
-/

import LintRepair.Proofs.FileTree.Resolution
import LintRepair.Proofs.Repair.Groups

namespace LintRepair

namespace Run

/-- Paths with different components lead to different places, as far as they lead anywhere. -/
def Distinct (files : FileTree) (diagnostics : List Diagnostic) : Prop :=
  ∀ left ∈ diagnostics, ∀ right ∈ diagnostics,
    left.file.components ≠ right.file.components → ∀ location,
      files.resolve left.file = .ok location → files.resolve right.file ≠ .ok location

/-- No two groups lead to one place. -/
def GroupsApart (files : FileTree) (groups : List FileGroup) : Prop :=
  groups.Pairwise fun left right => ∀ location,
    files.place? left.path = some location → files.place? right.path ≠ some location

/-- What the answers to the diagnostics of a path make of its text. -/
def answered (fixer : Fixer) (diagnostics : List Diagnostic) (path : Path) (text : List Char) :
    List Char :=
  let own := diagnostics.filter fun diagnostic => diagnostic.file.components = path.components
  if own = [] then text else patched fixer own text

/-- The group of a path answers all its diagnostics. -/
theorem patchedGroup (fixer : Fixer) {diagnostics : List Diagnostic} {group : FileGroup}
    (inside : group ∈ FileGroup.ofDiagnostics diagnostics) (text : List Char) :
    patched fixer group.diagnostics text = answered fixer diagnostics group.path text := by
  have partitions := FileGroup.ofDiagnosticsPartitions diagnostics
  obtain ⟨first, isFirst, path⟩ := partitions.pathInside inside
  have own : first ∈ group.diagnostics :=
    (partitions.members_iff inside).mpr ⟨isFirst, by rw [path]⟩
  rw [answered, ← partitions.members group inside, if_neg (List.ne_nil_of_mem own)]

section

variable (fixer : Fixer) {files : FileTree} {groups : List FileGroup}

/-- A location to which no group leads keeps its text. -/
theorem groupsChangeElsewhere {location : Location}
    (elsewhere : ∀ group ∈ groups, files.place? group.path ≠ some location) (text : List Char) :
    groups.foldl (groupChange fixer files location) text = text :=
  FileGroup.foldlStays (fun group inside _ => if_neg (elsewhere group inside)) text

/-- Of groups that lead to different places only one changes a text. -/
theorem groupsChangeOwn (apart : GroupsApart files groups) {group : FileGroup}
    (inside : group ∈ groups) {location : Location}
    (place : files.place? group.path = some location) (text : List Char) :
    groups.foldl (groupChange fixer files location) text =
      patched fixer group.diagnostics text := by
  induction groups generalizing text with
  | nil => cases inside
  | cons first groups inductionHypothesis =>
    obtain ⟨others, apart⟩ := List.pairwise_cons.mp apart
    rw [List.foldl_cons]
    rcases List.mem_cons.mp inside with rfl | later
    · rw [groupsChangeElsewhere fixer fun other isOther => others other isOther location place,
        groupChange, if_pos place]
    · have elsewhere : files.place? first.path ≠ some location := fun leads =>
        others group later location leads place
      rw [groupChange, if_neg elsewhere, inductionHypothesis apart later]

end

/-- A path can be read, and its file takes one text in the place of another. Both are told by the text
that is there. -/
def Feasible (files : FileTree) (path : Path) (old new : List Char → List Char) : Prop :=
  ∃ location text, files.readText path = .ok (location, text) ∧
    files.Takes location (old text.toList) (new text.toList)

theorem Feasible.readable {files : FileTree} {path : Path} {old new : List Char → List Char}
    (feasible : Feasible files path old new) :
    ∃ location text, files.readText path = .ok (location, text) := by
  obtain ⟨location, text, read, -⟩ := feasible
  exact ⟨location, text, read⟩

/-- How a path fails that is not feasible, when the files have become other ones meanwhile: it cannot be
read, or its file does not take the new text, a part of which may have been written. -/
inductive Fails (files between : FileTree) (path : Path) (old new : List Char → List Char) :
    RunError → FileTree → Prop
  | unreadable {error : FileError} (unread : files.readText path = .error error) :
      Fails files between path old new (.read path error) between
  | refused {location : Location} {text : String} {error : FileError}
      (read : files.readText path = .ok (location, text))
      (changed : new text.toList ≠ old text.toList)
      (refuses : files.writeError? location (encoded (String.ofList (new text.toList))) =
        some error) :
      Fails files between path old new (.write path error)
        (between.write location (encoded (String.ofList (new text.toList))))

section

variable {fixer : Fixer} {change : Location → List Char → List Char} {files between : FileTree}
  {group : FileGroup} {old new : List Char → List Char}

theorem Feasible.answers (feasible : Feasible files group.path old new)
    (updates : files.Updates change between)
    (reads : ∀ location text, files.readText group.path = .ok (location, text) →
      change location text.toList = old text.toList)
    (patches : ∀ text, patched fixer group.diagnostics (old text) = new text) :
    Answers fixer between group := by
  obtain ⟨location, text, read, takes⟩ := feasible
  have reread := updates.readText read
  rw [reads location text read] at reread
  refine ⟨location, _, reread, fun changed => ?_⟩
  rw [String.toList_ofList, patches] at changed ⊢
  rw [updates.writeError]
  exact takes changed

/-- What is not feasible stops the repair when its turn comes. -/
theorem stopsOfNotFeasible (infeasible : ¬ Feasible files group.path old new)
    (updates : files.Updates change between)
    (reads : ∀ location text, files.readText group.path = .ok (location, text) →
      change location text.toList = old text.toList)
    (patches : ∀ text, patched fixer group.diagnostics (old text) = new text) :
    ∃ error after, Fails files between group.path old new error after ∧
      Stops fixer between group error after := by
  cases read : files.readText group.path with
  | error error =>
    exact ⟨_, _, .unreadable read, .unreadable (updates.readTextError read)⟩
  | ok found =>
    obtain ⟨location, text⟩ := found
    have reread := updates.readText read
    rw [reads location text read] at reread
    have refused : ¬ files.Takes location (old text.toList) (new text.toList) :=
      fun takes => infeasible ⟨location, text, read, takes⟩
    obtain ⟨changed, error, refuses⟩ := FileTree.notTakes_iff.mp refused
    refine ⟨_, _, .refused read changed refuses, ?_⟩
    have becomes : patched fixer group.diagnostics
        (String.ofList (old text.toList)).toList = new text.toList := by
      rw [String.toList_ofList, patches]
    rw [← becomes] at changed refuses ⊢
    rw [← updates.writeError] at refuses
    exact .refused reread (by simpa only [String.toList_ofList] using changed) refuses

end

/-- Either all items have a property, or there is a first one without it. -/
theorem allOrFirst {Item : Type} (holds : Item → Prop) (items : List Item) :
    (∀ item ∈ items, holds item) ∨ ∃ before item behind, items = before ++ item :: behind ∧
      (∀ earlier ∈ before, holds earlier) ∧ ¬ holds item := by
  induction items with
  | nil => exact .inl fun item inside => by cases inside
  | cons first items inductionHypothesis =>
    by_cases own : holds first
    · rcases inductionHypothesis with all | ⟨before, item, behind, rfl, earlier, fails⟩
      · exact .inl (List.forall_mem_cons.mpr ⟨own, all⟩)
      · exact .inr ⟨first :: before, item, behind, rfl,
          List.forall_mem_cons.mpr ⟨own, earlier⟩, fails⟩
    · exact .inr ⟨[], first, items, rfl, by simp, own⟩

/-- A file to which no group leads is read as before. -/
theorem readTextElsewhere (fixer : Fixer) {files : FileTree} {groups : List FileGroup} {path : Path}
    (elsewhere : ∀ location, files.place? path = some location →
      ∀ group ∈ groups, files.place? group.path ≠ some location) :
    (groups.foldl (filesAfterGroup fixer) files).readText path = files.readText path := by
  have updates := filesAfterGroupsUpdates fixer files groups
  cases read : files.readText path with
  | error error => exact updates.readTextError read
  | ok found =>
    obtain ⟨location, text⟩ := found
    obtain ⟨leads, -⟩ := FileTree.readText_eq_ok_iff.mp read
    have place := elsewhere location (FileTree.place_eq_some_iff.mpr leads)
    rw [updates.readText read, groupsChangeElsewhere fixer place, String.ofList_toList]

theorem readTextElsewhereOne (fixer : Fixer) {files : FileTree} {group : FileGroup} {path : Path}
    (elsewhere : ∀ location, files.place? path = some location →
      files.place? group.path ≠ some location) :
    (filesAfterGroup fixer files group).readText path = files.readText path := by
  have alone : ∀ location, files.place? path = some location →
      ∀ first ∈ [group], files.place? first.path ≠ some location := by
    intro location leads first isFirst
    rw [List.mem_singleton.mp isFirst]
    exact elsewhere location leads
  exact readTextElsewhere fixer alone

/-- Groups that lead to different places do not get in each other's way. -/
theorem answerableApart {fixer : Fixer} {files : FileTree} {groups : List FileGroup}
    (apart : GroupsApart files groups) (each : ∀ group ∈ groups, Answers fixer files group) :
    Answerable fixer files groups := by
  induction groups generalizing files with
  | nil => trivial
  | cons group groups inductionHypothesis =>
    obtain ⟨others, tail⟩ := List.pairwise_cons.mp apart
    have updates := filesAfterGroupUpdates fixer files group
    refine ⟨each group List.mem_cons_self, inductionHypothesis ?_ fun other inside => ?_⟩
    · simpa only [GroupsApart, updates.place] using tail
    · obtain ⟨location, text, read, takes⟩ := each other (List.mem_cons_of_mem group inside)
      have same := readTextElsewhereOne fixer fun place leads own =>
        others other inside place own leads
      refine ⟨location, text, same.trans read, fun changed => ?_⟩
      rw [updates.writeError]
      exact takes changed

namespace Distinct

variable {files : FileTree} {all diagnostics : List Diagnostic} {before behind : List FileGroup}

/-- The groups lead to different places. -/
theorem apart (distinct : Distinct files all) (given : diagnostics ⊆ all)
    (groups : FileGroup.ofDiagnostics diagnostics = before ++ behind) :
    GroupsApart files before := by
  have partitions := (groups ▸ FileGroup.ofDiagnosticsPartitions diagnostics).front
  refine partitions.ordered.imp_of_mem fun {left right} isLeft isRight less location first => ?_
  obtain ⟨leftMember, leftGiven, leftPath⟩ := partitions.pathInside isLeft
  obtain ⟨rightMember, rightGiven, rightPath⟩ := partitions.pathInside isRight
  rw [← leftPath] at less first
  rw [← rightPath] at less ⊢
  have different : leftMember.file.components ≠ rightMember.file.components := by
    intro same
    rw [Path.compare_eq_iff.mpr same] at less
    cases less
  intro second
  exact distinct leftMember (given (List.mem_of_mem_filter leftGiven)) rightMember
    (given (List.mem_of_mem_filter rightGiven)) different _
    (FileTree.place_eq_some_iff.mp first) (FileTree.place_eq_some_iff.mp second)

/-- The groups before another one lead elsewhere. -/
theorem elsewhere (distinct : Distinct files all) (given : diagnostics ⊆ all) {group : FileGroup}
    (groups : FileGroup.ofDiagnostics diagnostics = before ++ group :: behind)
    {location : Location} (place : files.place? group.path = some location) :
    ∀ other ∈ before, files.place? other.path ≠ some location := by
  have extended : FileGroup.ofDiagnostics diagnostics = (before ++ [group]) ++ behind := by
    rw [groups, List.append_cons]
  have apart := distinct.apart given extended
  intro other inside leads
  exact (List.pairwise_append.mp apart).2.2 other inside group (List.mem_singleton_self group) _
    leads place

section

variable {fixer : Fixer} {between : FileTree} {change : Location → List Char → List Char}

/-- The first groups can be answered when each of them is feasible. -/
theorem answerable (distinct : Distinct files all) (given : diagnostics ⊆ all)
    (groups : FileGroup.ofDiagnostics diagnostics = before ++ behind)
    (updates : files.Updates change between) {old new : FileGroup → List Char → List Char}
    (reads : ∀ group ∈ before, ∀ location text, files.readText group.path = .ok (location, text) →
      change location text.toList = old group text.toList)
    (patches : ∀ group ∈ before, ∀ text,
      patched fixer group.diagnostics (old group text) = new group text)
    (feasible : ∀ group ∈ before, Feasible files group.path (old group) (new group)) :
    Answerable fixer between before := by
  have apart : GroupsApart between before := by
    simpa only [GroupsApart, updates.place] using distinct.apart given groups
  exact answerableApart apart fun group inside =>
    (feasible group inside).answers updates (reads group inside) (patches group inside)

/-- A group that is not feasible stops the repair when the groups before it have been answered. -/
theorem stops (distinct : Distinct files all) (given : diagnostics ⊆ all) {group : FileGroup}
    (groups : FileGroup.ofDiagnostics diagnostics = before ++ group :: behind)
    (updates : files.Updates change between) {old new : List Char → List Char}
    (reads : ∀ location text, files.readText group.path = .ok (location, text) →
      change location text.toList = old text.toList)
    (patches : ∀ text, patched fixer group.diagnostics (old text) = new text)
    (infeasible : ¬ Feasible files group.path old new) :
    ∃ error after,
      Fails files (before.foldl (filesAfterGroup fixer) between) group.path old new error after ∧
      Stops fixer (before.foldl (filesAfterGroup fixer) between) group error after := by
  have further := filesAfterGroupsUpdates fixer between before
  rw [groupChangeUpdated fixer updates] at further
  refine stopsOfNotFeasible infeasible (updates.trans further) (fun location text read => ?_) patches
  obtain ⟨leads, -⟩ := FileTree.readText_eq_ok_iff.mp read
  rw [reads location text read]
  exact groupsChangeElsewhere fixer
    (distinct.elsewhere given groups (FileTree.place_eq_some_iff.mpr leads)) _

end

/-- A file is changed as all diagnostics of its path ask for, if its group was answered. -/
theorem changeOwn (distinct : Distinct files all) (given : diagnostics ⊆ all)
    (groups : FileGroup.ofDiagnostics diagnostics = before ++ behind)
    (readable : Readable files before) (fixer : Fixer) {group : FileGroup} (inside : group ∈ before)
    {path : Path} (same : group.path.components = path.components) {location : Location}
    (leads : files.resolve path = .ok location) (text : List Char) :
    before.foldl (groupChange fixer files location) text =
      answered fixer diagnostics path text := by
  have isGroup : group ∈ FileGroup.ofDiagnostics diagnostics :=
    groups ▸ List.mem_append_left behind inside
  obtain ⟨place, found, read⟩ := readable group inside
  obtain ⟨groupLeads, -⟩ := FileTree.readText_eq_ok_iff.mp read
  have atPlace : files.place? group.path = some location := by
    rw [FileTree.place_eq_some_iff, groupLeads,
      FileTree.resolveSameComponents same groupLeads leads]
  rw [groupsChangeOwn fixer (distinct.apart given groups) inside atPlace, patchedGroup fixer isGroup]
  simp only [answered, same]

/-- A file stays while no group of its path is answered. -/
theorem changeOther (distinct : Distinct files all) (given : diagnostics ⊆ all)
    (groups : FileGroup.ofDiagnostics diagnostics = before ++ behind) (fixer : Fixer)
    {diagnostic : Diagnostic} (isGiven : diagnostic ∈ all)
    (different : ∀ group ∈ before, group.path.components ≠ diagnostic.file.components)
    {location : Location} (leads : files.resolve diagnostic.file = .ok location)
    (text : List Char) : before.foldl (groupChange fixer files location) text = text := by
  have partitions := groups ▸ FileGroup.ofDiagnosticsPartitions diagnostics
  refine groupsChangeElsewhere fixer (fun group inside place => ?_) text
  obtain ⟨first, isFirst, isPath⟩ := partitions.pathInside (List.mem_append_left behind inside)
  refine distinct first (given isFirst) diagnostic isGiven ?_ _ ?_ leads
  · rw [isPath]
    exact different group inside
  · rw [isPath]
    exact FileTree.place_eq_some_iff.mp place

/-- When all groups are answered, every file is changed as its diagnostics ask for. -/
theorem changeAll (distinct : Distinct files all) (given : diagnostics ⊆ all)
    (readable : Readable files (FileGroup.ofDiagnostics diagnostics)) (fixer : Fixer)
    {diagnostic : Diagnostic} (isGiven : diagnostic ∈ all) {location : Location}
    (leads : files.resolve diagnostic.file = .ok location) (text : List Char) :
    (FileGroup.ofDiagnostics diagnostics).foldl (groupChange fixer files location) text =
      answered fixer diagnostics diagnostic.file text := by
  have whole := (List.append_nil (FileGroup.ofDiagnostics diagnostics)).symm
  by_cases grouped : ∃ group ∈ FileGroup.ofDiagnostics diagnostics,
      group.path.components = diagnostic.file.components
  · obtain ⟨group, inside, same⟩ := grouped
    exact distinct.changeOwn given whole readable fixer inside same leads text
  · have nothing : diagnostics.filter (fun other =>
        other.file.components = diagnostic.file.components) = [] := by
      refine List.filter_eq_nil_iff.mpr fun other isOther same => grouped ?_
      obtain ⟨group, inside, isOwn⟩ :=
        (FileGroup.ofDiagnosticsPartitions diagnostics).covers other isOther
      exact ⟨group, inside, isOwn.symm.trans (of_decide_eq_true same)⟩
    rw [answered, nothing, if_pos rfl]
    exact distinct.changeOther given whole fixer isGiven
      (fun group inside same => grouped ⟨group, inside, same⟩) leads text

end Distinct

end Run

end LintRepair
