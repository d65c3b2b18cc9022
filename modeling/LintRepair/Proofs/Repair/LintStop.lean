/-
This file follows a lint repair that cannot be finished: which answers were given, what they leave of
the files, and what was told.
-/

import LintRepair.Proofs.Repair.Lint
import LintRepair.Proofs.Repair.Transcript

namespace LintRepair

namespace Run

/-- A group with the fixer that answers it. -/
structure Answer where
  fixer : Fixer
  group : FileGroup
deriving Repr, DecidableEq

namespace Answer

def notice (answer : Answer) : Notice :=
  .fixing answer.fixer.name answer.group.path

/-- The line that tells of an answer. Of the path it shows the file name, if there is one. -/
def line (answer : Answer) : String :=
  "Fixing " ++ answer.fixer.name ++ " in " ++
    answer.group.path.fileName?.getD answer.group.path.spelling ++ "...\n"

/-- What an answer finds of the text of its file when the answers before it were given. -/
def old (settings : Settings) (found : List Diagnostic) (answer : Answer) :
    List Char → List Char :=
  match answer.fixer with
  | .requireImports => blanked settings found answer.group.path
  | .unusedVariables | .unusedParameters => id

/-- What an answer leaves of the text of its file. -/
def new (settings : Settings) (found : List Diagnostic) (answer : Answer) :
    List Char → List Char :=
  match answer.fixer with
  | .requireImports => repaired settings found answer.group.path
  | .unusedVariables | .unusedParameters => blanked settings found answer.group.path

/-- Whether an answer can be given when its turn comes. -/
def Possible (settings : Settings) (files : FileTree) (found : List Diagnostic)
    (answer : Answer) : Prop :=
  Feasible files answer.group.path (answer.old settings found) (answer.new settings found)

end Answer

/-- The files from which declarations are to be removed. -/
def removals (settings : Settings) (found : List Diagnostic) : List FileGroup :=
  FileGroup.ofDiagnostics (Diagnostic.underRule settings.unusedVariableRule found)

/-- The files in which calls are to be converted. -/
def conversions (settings : Settings) (found : List Diagnostic) : List FileGroup :=
  FileGroup.ofDiagnostics (Diagnostic.underRule settings.requireImportRule found)

/-- The groups of both fixers in the order in which a lint repair comes to them. A group is read
under the spelling of its first diagnostic. -/
def answers (settings : Settings) (found : List Diagnostic) : List Answer :=
  (removals settings found).map (Answer.mk .unusedVariables) ++
    (conversions settings found).map (Answer.mk .requireImports)

/-- What a lint repair has told when it has come to some answers. -/
def lintText (found : List Diagnostic) (given : List Answer) : String :=
  "Fixing ESLint errors systematically...\n" ++
    ("Found " ++ toString found.length ++ " error violations\n" ++
      String.join (given.map Answer.line))

/-- What becomes of the files when a lint repair has given some answers and no more. A file with a
conversion is as at the end of a whole repair, a file that only lost declarations is as between the
fixers, and everything else stays. -/
structure Leaves (settings : Settings) (found : List Diagnostic) (given : List Answer)
    (before after : FileTree) : Prop where
  repaired : ∀ group, ⟨.requireImports, group⟩ ∈ given → ∀ location text,
    before.readText group.path = .ok (location, text) → after.readText group.path =
      .ok (location, String.ofList (repaired settings found group.path text.toList))
  blanked : ∀ group, ⟨.unusedVariables, group⟩ ∈ given →
    (∀ other, ⟨.requireImports, other⟩ ∈ given →
      other.path.components ≠ group.path.components) → ∀ location text,
    before.readText group.path = .ok (location, text) → after.readText group.path =
      .ok (location, String.ofList (blanked settings found group.path text.toList))
  others : ∀ location, (∀ answer ∈ given,
      before.resolve answer.group.path ≠ .ok location) →
    after.entryAt? location = before.entryAt? location

/-- A lint repair has given some answers, which leave some files between, and stops at the next one:
its file cannot be read, or it does not take its new text, a part of which may then be in it. This does
not depend on a second report. -/
structure LintStops (settings : Settings) (files : FileTree) (found : List Diagnostic)
    (given : List Answer) (stopped : Answer) (error : RunError) (between after : FileTree) :
    Prop where
  order : ∃ behind, answers settings found = given ++ stopped :: behind
  possible : ∀ answer ∈ given, answer.Possible settings files found
  leaves : Leaves settings found given files between
  fails : Fails files between stopped.group.path (stopped.old settings found)
    (stopped.new settings found) error after
  run : ∃ progress, progress.files = after ∧
    Notice.transcript progress.notices = lintText found (given ++ [stopped]) ∧
    ∀ source : Source, source.initial files = (.ok found, files) →
      (lint settings source).run (.start files) = (.error error, progress)

/-- A lint repair has given all answers and ends when the second report fails. -/
structure LintUnchecked (settings : Settings) (files : FileTree) (found : List Diagnostic)
    (after : FileTree) : Prop where
  leaves : Leaves settings found (answers settings found) files after
  run : ∃ progress, progress.files = after ∧
    Notice.transcript progress.notices = lintText found (answers settings found) ++
      "\x1b[32m✓\x1b[0m Fixes applied. Checking remaining errors...\n" ∧
    ∀ (source : Source) (error : SourceError),
      source.initial files = (.ok found, files) → source.recheck after = (.error error, after) →
        (lint settings source).run (.start files) = (.error (.source error), progress)

theorem lintTranscript (found : List Diagnostic) (given : List Answer) :
    Notice.transcript (.banner :: .found found.length :: given.map Answer.notice) =
      lintText found given := by
  rw [Notice.transcriptCons, Notice.transcriptCons, Notice.transcript, List.map_map]
  rfl

section

variable {settings : Settings} {files : FileTree} {found : List Diagnostic}

theorem removalPatches {group : FileGroup} (inside : group ∈ removals settings found)
    (text : List Char) : patched .unusedVariables group.diagnostics text =
      blanked settings found group.path text :=
  (patchedGroup .unusedVariables inside text).trans (answeredBlanked settings found group.path text)

theorem conversionPatches {group : FileGroup} (inside : group ∈ conversions settings found)
    (text : List Char) :
    patched .requireImports group.diagnostics (blanked settings found group.path text) =
      repaired settings found group.path text :=
  (patchedGroup .requireImports inside _).trans (answeredRepaired settings found group.path text)

/-- Whether all of some groups can be answered by a fixer when their turn comes. -/
def AllPossible (settings : Settings) (files : FileTree) (found : List Diagnostic) (fixer : Fixer)
    (groups : List FileGroup) : Prop :=
  ∀ group ∈ groups, (Answer.mk fixer group).Possible settings files found

theorem AllPossible.readable {fixer : Fixer} {groups : List FileGroup}
    (possible : AllPossible settings files found fixer groups) : Readable files groups :=
  fun group inside => (possible group inside).readable

/-- The files when all declarations have been removed. -/
def filesRemoved (settings : Settings) (files : FileTree) (found : List Diagnostic) : FileTree :=
  (removals settings found).foldl (filesAfterGroup .unusedVariables) files

namespace Distinct

variable {removed removable converted convertible : List FileGroup}

theorem removes (distinct : Distinct files (flagged settings found))
    (isRemoval : removals settings found = removed ++ removable)
    (possible : AllPossible settings files found .unusedVariables removed) :
    Answerable .unusedVariables files removed :=
  distinct.answerable unusedFlagged isRemoval (FileTree.updatesRefl files) (fun _ _ _ _ _ => rfl)
    (fun _ inside => removalPatches (isRemoval ▸ List.mem_append_left removable inside)) possible

/-- When all declarations have been removed, a file that is to be converted has its blanked text. -/
theorem removedText (distinct : Distinct files (flagged settings found))
    (readable : Readable files (removals settings found)) {group : FileGroup}
    (inside : group ∈ conversions settings found) {location : Location} {text : String}
    (read : files.readText group.path = .ok (location, text)) :
    (removals settings found).foldl (groupChange .unusedVariables files location) text.toList =
      blanked settings found group.path text.toList := by
  obtain ⟨member, isMember, path⟩ := (FileGroup.ofDiagnosticsPartitions _).pathInside inside
  obtain ⟨leads, -⟩ := FileTree.readText_eq_ok_iff.mp read
  rw [← path] at leads ⊢
  rw [← answeredBlanked]
  exact distinct.changeAll unusedFlagged readable .unusedVariables (requireFlagged isMember) leads
    text.toList

theorem converts (distinct : Distinct files (flagged settings found))
    (isConversion : conversions settings found = converted ++ convertible)
    (removed : AllPossible settings files found .unusedVariables (removals settings found))
    (possible : AllPossible settings files found .requireImports converted) :
    Answerable .requireImports (filesRemoved settings files found) converted := by
  have isGroup : ∀ group ∈ converted, group ∈ conversions settings found :=
    fun group inside => isConversion ▸ List.mem_append_left convertible inside
  exact distinct.answerable requireFlagged isConversion
    (filesAfterGroupsUpdates .unusedVariables files (removals settings found))
    (fun group inside _ _ read => distinct.removedText removed.readable (isGroup group inside) read)
    (fun group inside => conversionPatches (isGroup group inside)) possible

/-- A removal that cannot be made stops the repair when those before it have been made. -/
theorem stopsRemoving (distinct : Distinct files (flagged settings found)) {group : FileGroup}
    (isRemoval : removals settings found = removed ++ group :: removable)
    (impossible : ¬ (Answer.mk .unusedVariables group).Possible settings files found) :
    ∃ error after,
      Fails files (removed.foldl (filesAfterGroup .unusedVariables) files) group.path id
        (blanked settings found group.path) error after ∧
      Stops .unusedVariables (removed.foldl (filesAfterGroup .unusedVariables) files) group error
        after := by
  have isGroup : group ∈ removals settings found :=
    isRemoval ▸ List.mem_append_right removed List.mem_cons_self
  exact distinct.stops unusedFlagged isRemoval (FileTree.updatesRefl files) (fun _ _ _ => rfl)
    (removalPatches isGroup) impossible

/-- A conversion that cannot be made stops the repair when all declarations have been removed and the
conversions before it have been made. -/
theorem stopsConverting (distinct : Distinct files (flagged settings found)) {group : FileGroup}
    (isConversion : conversions settings found = converted ++ group :: convertible)
    (removed : AllPossible settings files found .unusedVariables (removals settings found))
    (impossible : ¬ (Answer.mk .requireImports group).Possible settings files found) :
    let between := converted.foldl (filesAfterGroup .requireImports)
      (filesRemoved settings files found)
    ∃ error after,
      Fails files between group.path (blanked settings found group.path)
        (repaired settings found group.path) error after ∧
      Stops .requireImports between group error after := by
  have isGroup : group ∈ conversions settings found :=
    isConversion ▸ List.mem_append_right converted List.mem_cons_self
  exact distinct.stops requireFlagged isConversion
    (filesAfterGroupsUpdates .unusedVariables files (removals settings found))
    (fun _ _ read => distinct.removedText removed.readable isGroup read)
    (conversionPatches isGroup) impossible

/-- A converted file goes through both fixers, since conversions begin when all declarations have been
removed. -/
theorem convertedText (distinct : Distinct files (flagged settings found))
    (isConversion : conversions settings found = converted ++ convertible)
    (readableRemoved : Readable files (removals settings found))
    (readableConverted : Readable files converted) {group : FileGroup} (inside : group ∈ converted)
    {location : Location} {text : String}
    (read : files.readText group.path = .ok (location, text)) :
    converted.foldl (groupChange .requireImports files location)
        ((removals settings found).foldl (groupChange .unusedVariables files location) text.toList) =
      repaired settings found group.path text.toList := by
  have isGroup : group ∈ conversions settings found :=
    isConversion ▸ List.mem_append_left convertible inside
  obtain ⟨leads, -⟩ := FileTree.readText_eq_ok_iff.mp read
  rw [distinct.removedText readableRemoved isGroup read, distinct.changeOwn requireFlagged isConversion
    readableConverted .requireImports inside rfl leads, answeredRepaired]

/-- A file that is not converted only loses declarations. -/
theorem unconvertedText (distinct : Distinct files (flagged settings found))
    (isRemoval : removals settings found = removed ++ removable)
    (isConversion : conversions settings found = converted ++ convertible)
    (readableRemoved : Readable files removed) {group : FileGroup} (inside : group ∈ removed)
    (unconverted : ∀ other ∈ converted, other.path.components ≠ group.path.components)
    {location : Location} {text : String}
    (read : files.readText group.path = .ok (location, text)) :
    converted.foldl (groupChange .requireImports files location)
        (removed.foldl (groupChange .unusedVariables files location) text.toList) =
      blanked settings found group.path text.toList := by
  obtain ⟨member, isMember, path⟩ := (FileGroup.ofDiagnosticsPartitions _).pathInside
    (isRemoval.symm ▸ List.mem_append_left removable inside)
  obtain ⟨leads, -⟩ := FileTree.readText_eq_ok_iff.mp read
  rw [distinct.changeOwn unusedFlagged isRemoval readableRemoved .unusedVariables inside rfl leads,
    answeredBlanked]
  rw [← path] at leads unconverted
  rw [distinct.changeOther requireFlagged isConversion .requireImports (unusedFlagged isMember)
    unconverted leads]

/-- Whatever has been removed and converted, no conversion comes before the last removal. -/
theorem leaves (distinct : Distinct files (flagged settings found))
    (isRemoval : removals settings found = removed ++ removable)
    (isConversion : conversions settings found = converted ++ convertible)
    (order : removable = [] ∨ converted = []) (readableRemoved : Readable files removed)
    (readableConverted : Readable files converted) :
    Leaves settings found
      (removed.map (Answer.mk .unusedVariables) ++ converted.map (Answer.mk .requireImports))
      files
      (converted.foldl (filesAfterGroup .requireImports)
        (removed.foldl (filesAfterGroup .unusedVariables) files)) := by
  have first := filesAfterGroupsUpdates .unusedVariables files removed
  have second := filesAfterGroupsUpdates .requireImports
    (removed.foldl (filesAfterGroup .unusedVariables) files) converted
  rw [groupChangeUpdated .requireImports first] at second
  have updates := first.trans second
  have isRemoved : ∀ group, ⟨.unusedVariables, group⟩ ∈
      removed.map (Answer.mk .unusedVariables) ++ converted.map (Answer.mk .requireImports) ↔
        group ∈ removed := by simp
  have isConverted : ∀ group, ⟨.requireImports, group⟩ ∈
      removed.map (Answer.mk .unusedVariables) ++ converted.map (Answer.mk .requireImports) ↔
        group ∈ converted := by simp
  refine ⟨fun group inside location text read => ?_, fun group inside alone location text read => ?_,
    fun location elsewhere => updates.entrySame fun text => ?_⟩
  · rw [isConverted] at inside
    have whole : removals settings found = removed := by
      rw [isRemoval, order.resolve_right (List.ne_nil_of_mem inside), List.append_nil]
    have becomes := distinct.convertedText isConversion (whole ▸ readableRemoved) readableConverted
      inside read
    rw [whole] at becomes
    rw [updates.readText read, becomes]
  · rw [isRemoved] at inside
    rw [updates.readText read, distinct.unconvertedText isRemoval isConversion readableRemoved inside
      (fun other isOther => alone other ((isConverted other).mpr isOther)) read]
  · have unremoved : ∀ group ∈ removed, files.place? group.path ≠ some location :=
      fun group inside place => elsewhere _ ((isRemoved group).mpr inside)
        (FileTree.place_eq_some_iff.mp place)
    have unconverted : ∀ group ∈ converted, files.place? group.path ≠ some location :=
      fun group inside place => elsewhere _ ((isConverted group).mpr inside)
        (FileTree.place_eq_some_iff.mp place)
    rw [groupsChangeElsewhere .unusedVariables unremoved,
      groupsChangeElsewhere .requireImports unconverted]

end Distinct

theorem runCollectFailed {source : Collect} {files after : FileTree} {error : SourceError}
    (fails : source files = (.error error, after)) (notices : List Notice)
    (warnings : List Warning) :
    (collect source).run ⟨files, notices, warnings⟩ =
      (.error (.source error), ⟨after, notices, warnings⟩) := by
  simp only [collect, runBind, runGet, runModify, fails, runThrow]

theorem fixRemovals : fixRule .unusedVariables settings.unusedVariableRule found =
    fixGroups .unusedVariables (removals settings found) := rfl

theorem fixConversions : fixRule .requireImports settings.requireImportRule found =
    fixGroups .requireImports (conversions settings found) := rfl

theorem noticesOf (fixer : Fixer) (groups : List FileGroup) :
    (groups.map (Answer.mk fixer)).map Answer.notice =
      groups.map fun group => .fixing fixer.name group.path := by
  rw [List.map_map]
  rfl

/-- Without a first report nothing happens. -/
theorem lintUnlisted (settings : Settings) {source : Source} {error : SourceError}
    (fails : source.initial files = (.error error, files)) :
    (lint settings source).run (.start files) =
      (.error (.source error), ⟨files, [.banner], []⟩) := by
  simp only [lint, Progress.start, runBind, runTell, runCollectFailed fails, List.nil_append]

/-- A removal stops the repair, so that no call is converted. -/
theorem lintStoppedRemoving {removed behind : List FileGroup} {group : FileGroup}
    {error : RunError} {after : FileTree}
    (isRemoval : removals settings found = removed ++ group :: behind)
    (answerable : Answerable .unusedVariables files removed)
    (stops : Stops .unusedVariables (removed.foldl (filesAfterGroup .unusedVariables) files) group
      error after) :
    ∃ warnings, ∀ source : Source, source.initial files = (.ok found, files) →
      (lint settings source).run (.start files) = (.error error, ⟨after,
        .banner :: .found found.length ::
          ((removed ++ [group]).map (Answer.mk .unusedVariables)).map Answer.notice,
        warnings⟩) := by
  obtain ⟨warnings, runs⟩ := fixGroupsStopped [.banner, .found found.length] [] isRemoval answerable
    stops
  refine ⟨warnings, fun source initial => ?_⟩
  rw [noticesOf]
  simp only [lint, fixRemovals, Progress.start, runBind, runTell, runCollect initial,
    List.nil_append, List.cons_append, runs]

theorem lintRemoves
    (removable : Answerable .unusedVariables files (removals settings found)) :
    ∃ fixed warnings, (fixGroups .unusedVariables (removals settings found)).run
        ⟨files, [.banner, .found found.length], []⟩ =
      (.ok fixed, ⟨filesRemoved settings files found,
        .banner :: .found found.length ::
          ((removals settings found).map (Answer.mk .unusedVariables)).map Answer.notice,
        warnings⟩) := by
  rw [noticesOf]
  exact ⟨_, _, fixGroupsAnswerable [.banner, .found found.length] [] removable⟩

/-- A conversion stops the repair when all declarations have been removed. -/
theorem lintStoppedConverting {converted behind : List FileGroup} {group : FileGroup}
    {error : RunError} {after : FileTree}
    (removable : Answerable .unusedVariables files (removals settings found))
    (isConversion : conversions settings found = converted ++ group :: behind)
    (answerable : Answerable .requireImports (filesRemoved settings files found) converted)
    (stops : Stops .requireImports
      (converted.foldl (filesAfterGroup .requireImports) (filesRemoved settings files found)) group
      error after) :
    ∃ warnings, ∀ source : Source, source.initial files = (.ok found, files) →
      (lint settings source).run (.start files) = (.error error, ⟨after,
        .banner :: .found found.length ::
          ((removals settings found).map (Answer.mk .unusedVariables) ++
            (converted ++ [group]).map (Answer.mk .requireImports)).map Answer.notice,
        warnings⟩) := by
  obtain ⟨fixed, given, removes⟩ := lintRemoves removable
  obtain ⟨warnings, runs⟩ := fixGroupsStopped (.banner :: .found found.length ::
    ((removals settings found).map (Answer.mk .unusedVariables)).map Answer.notice) given isConversion
    answerable stops
  refine ⟨warnings, fun source initial => ?_⟩
  rw [List.map_append, noticesOf .requireImports]
  simp only [lint, fixRemovals, fixConversions, Progress.start, runBind, runTell,
    runCollect initial, List.nil_append, List.cons_append, removes, runs]

/-- Without a second report everything is answered all the same. -/
theorem lintUncheckedRun (removable : Answerable .unusedVariables files (removals settings found))
    (convertible : Answerable .requireImports (filesRemoved settings files found)
      (conversions settings found)) :
    ∃ warnings, ∀ (source : Source) (error : SourceError),
      source.initial files = (.ok found, files) →
      source.recheck (filesRepaired settings files found) =
        (.error error, filesRepaired settings files found) →
      (lint settings source).run (.start files) = (.error (.source error),
        ⟨filesRepaired settings files found,
          .banner :: .found found.length :: (answers settings found).map Answer.notice ++
            [.rechecking], warnings⟩) := by
  obtain ⟨fixed, given, removes⟩ := lintRemoves removable
  obtain ⟨others, warnings, converts⟩ : ∃ others warnings,
      (fixGroups .requireImports (conversions settings found)).run
        ⟨filesRemoved settings files found, .banner :: .found found.length ::
          ((removals settings found).map (Answer.mk .unusedVariables)).map Answer.notice, given⟩ =
        (.ok others, ⟨filesRepaired settings files found, .banner :: .found found.length ::
          (answers settings found).map Answer.notice, warnings⟩) := by
    rw [answers, List.map_append, noticesOf .requireImports]
    exact ⟨_, _, fixGroupsAnswerable _ _ convertible⟩
  refine ⟨warnings, fun source error initial fails => ?_⟩
  simp only [lint, fixRemovals, fixConversions, Progress.start, runBind, runTell,
    runCollect initial, List.nil_append, List.cons_append, removes, converts,
    runCollectFailed fails]

namespace Distinct

theorem lintStopsRemoving (distinct : Distinct files (flagged settings found))
    {removed behind : List FileGroup} {group : FileGroup}
    (isRemoval : removals settings found = removed ++ group :: behind)
    (possible : AllPossible settings files found .unusedVariables removed)
    (impossible : ¬ (Answer.mk .unusedVariables group).Possible settings files found) :
    ∃ error between after, LintStops settings files found
      (removed.map (Answer.mk .unusedVariables)) ⟨.unusedVariables, group⟩ error between after := by
  have removes := distinct.removes isRemoval possible
  obtain ⟨error, after, fails, stopped⟩ := distinct.stopsRemoving isRemoval impossible
  obtain ⟨warnings, runs⟩ := lintStoppedRemoving isRemoval removes stopped
  have nothing : Readable files [] := fun other inside => by cases inside
  have leaves := distinct.leaves isRemoval (List.nil_append _).symm (.inr rfl) possible.readable
    nothing
  rw [List.map_nil, List.append_nil, List.foldl_nil] at leaves
  refine ⟨error, _, after, ⟨behind.map (Answer.mk .unusedVariables) ++
    (conversions settings found).map (Answer.mk .requireImports), ?_⟩, ?_, leaves, fails, _, rfl, ?_,
    runs⟩
  · rw [answers, isRemoval, List.map_append, List.map_cons, List.append_assoc, List.cons_append]
  · exact List.forall_mem_map.mpr possible
  · rw [lintTranscript, List.map_append, List.map_singleton]

theorem lintStopsConverting (distinct : Distinct files (flagged settings found))
    {converted behind : List FileGroup} {group : FileGroup}
    (removable : AllPossible settings files found .unusedVariables (removals settings found))
    (isConversion : conversions settings found = converted ++ group :: behind)
    (possible : AllPossible settings files found .requireImports converted)
    (impossible : ¬ (Answer.mk .requireImports group).Possible settings files found) :
    ∃ error between after, LintStops settings files found
      ((removals settings found).map (Answer.mk .unusedVariables) ++
        converted.map (Answer.mk .requireImports)) ⟨.requireImports, group⟩ error between after := by
  have removes := distinct.removes (List.append_nil _).symm removable
  have converts := distinct.converts isConversion removable possible
  obtain ⟨error, after, fails, stopped⟩ := distinct.stopsConverting isConversion removable impossible
  obtain ⟨warnings, runs⟩ := lintStoppedConverting removes isConversion converts stopped
  have leaves := distinct.leaves (List.append_nil _).symm isConversion (.inl rfl) removable.readable
    possible.readable
  refine ⟨error, _, after, ⟨behind.map (Answer.mk .requireImports), ?_⟩, ?_, leaves, fails, _, rfl,
    ?_, runs⟩
  · rw [answers, isConversion, List.map_append, List.map_cons, List.append_assoc]
  · exact List.forall_mem_append.mpr
      ⟨List.forall_mem_map.mpr removable, List.forall_mem_map.mpr possible⟩
  · rw [lintTranscript, List.map_append, List.map_singleton, List.append_assoc]

/-- A lint repair stops at the first answer that cannot be given. -/
theorem lintStops (distinct : Distinct files (flagged settings found))
    (impossible : ∃ answer ∈ answers settings found, ¬ answer.Possible settings files found) :
    ∃ given stopped error between after,
      LintStops settings files found given stopped error between after := by
  rcases allOrFirst (fun group => (Answer.mk .unusedVariables group).Possible settings files found)
      (removals settings found) with
    removable | ⟨removed, group, behind, isRemoval, possible, stops⟩
  · rcases allOrFirst (fun group => (Answer.mk .requireImports group).Possible settings files found)
        (conversions settings found) with
      convertible | ⟨converted, group, behind, isConversion, possible, stops⟩
    · -- Not all answers can be given.
      obtain ⟨answer, inside, fails⟩ := impossible
      have all : ∀ answer ∈ answers settings found, answer.Possible settings files found :=
        List.forall_mem_append.mpr
          ⟨List.forall_mem_map.mpr removable, List.forall_mem_map.mpr convertible⟩
      exact absurd (all answer inside) fails
    · exact ⟨_, _, distinct.lintStopsConverting removable isConversion possible stops⟩
  · exact ⟨_, _, distinct.lintStopsRemoving isRemoval possible stops⟩

/-- When every answer can be given, a failing second report comes behind them all. -/
theorem lintUnchecked (distinct : Distinct files (flagged settings found))
    (possible : ∀ answer ∈ answers settings found, answer.Possible settings files found) :
    ∃ after, LintUnchecked settings files found after := by
  have removable : AllPossible settings files found .unusedVariables (removals settings found) :=
    fun group inside => possible _ (List.mem_append_left _ (List.mem_map_of_mem inside))
  have convertible : AllPossible settings files found .requireImports (conversions settings found) :=
    fun group inside => possible _ (List.mem_append_right _ (List.mem_map_of_mem inside))
  have leaves := distinct.leaves (List.append_nil _).symm (List.append_nil _).symm (.inl rfl)
    removable.readable convertible.readable
  obtain ⟨warnings, runs⟩ := lintUncheckedRun (distinct.removes (List.append_nil _).symm removable)
    (distinct.converts (List.append_nil _).symm removable convertible)
  refine ⟨_, leaves, _, rfl, ?_, runs⟩
  rw [Notice.transcriptAppend, lintTranscript, Notice.transcriptCons, Notice.transcriptNil,
    String.append_empty, Notice.recheckingText]

end Distinct

end

end Run

end LintRepair
