/-
This file shows that the groups of some diagnostics are an ordered partition of them by the
components of their paths.
-/

import LintRepair.Diagnostic.FileGroup
import Mathlib.Data.List.Basic
import Mathlib.Data.List.Induction
import Mathlib.Data.List.Perm.Subperm
import Mathlib.Data.List.Sort

namespace LintRepair

namespace Path

theorem compareKey (left right : Path) : compare left right = compare left.key right.key := rfl

/-- Two paths are equal in the path order exactly when they have the same components. -/
theorem compare_eq_iff {left right : Path} :
    compare left right = .eq ↔ left.components = right.components := by
  rw [compareKey, Std.LawfulEqOrd.compare_eq_iff_eq]
  refine ⟨fun equal => ?_, fun equal => by rw [key, key, equal]⟩
  exact List.map_injective_iff.mpr (fun _ _ => Component.keyInjective) equal

instance : Std.TransOrd Path where
  eq_swap := by
    intro left right
    rw [compareKey, compareKey, Std.OrientedOrd.eq_swap]
  isLE_trans := by
    intro first second third
    rw [compareKey, compareKey, compareKey]
    exact Std.TransOrd.isLE_trans

theorem compareCongr {left right otherLeft otherRight : Path}
    (sameLeft : left.components = otherLeft.components)
    (sameRight : right.components = otherRight.components) :
    compare left right = compare otherLeft otherRight := by
  have leftKey : left.key = otherLeft.key := congrArg (List.map Component.key) sameLeft
  have rightKey : right.key = otherRight.key := congrArg (List.map Component.key) sameRight
  rw [compareKey, compareKey, leftKey, rightKey]

end Path

/-- Where a diagnostic stands: the components of its path, and its line. -/
def Diagnostic.place (diagnostic : Diagnostic) : List Path.Component × Nat :=
  (diagnostic.file.components, diagnostic.line)

/-- The diagnostics that stand at one line of a path, in their order. -/
def Diagnostic.atLine (diagnostics : List Diagnostic) (path : Path) (number : Nat) :
    List Diagnostic :=
  diagnostics.filter fun diagnostic => diagnostic.place = (path.components, number)

theorem Diagnostic.filterPathLine (diagnostics : List Diagnostic) (path : Path) (number : Nat) :
    (diagnostics.filter fun diagnostic => diagnostic.file.components = path.components).filter
        (fun diagnostic => diagnostic.line = number) = atLine diagnostics path number := by
  rw [atLine, List.filter_filter]
  refine List.filter_congr fun diagnostic _ => ?_
  simp [place, Bool.and_comm]

namespace FileGroup

/-- Some groups stand in path order, and each holds the diagnostics of its path in their order under
the spelling of the first of them. No diagnostic is left out. -/
structure Partitions (groups : List FileGroup) (diagnostics : List Diagnostic) : Prop where
  ordered : groups.Pairwise fun left right => compare left.path right.path = .lt
  members : ∀ group ∈ groups, group.diagnostics =
    diagnostics.filter fun diagnostic => diagnostic.file.components = group.path.components
  spelling : ∀ group ∈ groups, group.diagnostics.head?.map Diagnostic.file = some group.path
  covers : ∀ diagnostic ∈ diagnostics, ∃ group ∈ groups,
    diagnostic.file.components = group.path.components

/-- A diagnostic joins the group of its path, or it opens a group because its path has none. -/
theorem addCases {groups : List FileGroup} {diagnostic : Diagnostic}
    (ordered : groups.Pairwise fun left right => compare left.path right.path = .lt)
    {group : FileGroup} (inside : group ∈ add groups diagnostic) :
    (∃ old ∈ groups, group.path = old.path ∧
      group.diagnostics = old.diagnostics ++
        if diagnostic.file.components = old.path.components then [diagnostic] else []) ∨
    (group = ⟨diagnostic.file, [diagnostic]⟩ ∧
      ∀ old ∈ groups, diagnostic.file.components ≠ old.path.components) := by
  induction groups with
  | nil =>
    right
    simpa [add] using inside
  | cons first groups inductionHypothesis =>
    obtain ⟨before, ordered⟩ := List.pairwise_cons.mp ordered
    simp only [add] at inside
    -- An old group that the diagnostic does not join stays as it was.
    have stays : ∀ old ∈ first :: groups, compare diagnostic.file old.path ≠ .eq → group = old →
        ∃ old ∈ first :: groups, group.path = old.path ∧
          group.diagnostics = old.diagnostics ++
            if diagnostic.file.components = old.path.components then [diagnostic] else [] := by
      rintro old isOld different rfl
      rw [Ne, Path.compare_eq_iff] at different
      exact ⟨group, isOld, rfl, by simp [different]⟩
    split at inside
    · next less =>
      have different : ∀ old ∈ first :: groups, compare diagnostic.file old.path ≠ .eq := by
        intro old isOld
        rcases List.mem_cons.mp isOld with rfl | isOld
        · simp [less]
        · simp [Std.TransCmp.lt_trans less (before old isOld)]
      rcases List.mem_cons.mp inside with isNew | isOld
      · exact .inr ⟨isNew, fun old isOld => fun equal =>
          different old isOld (Path.compare_eq_iff.mpr equal)⟩
      · exact .inl (stays group isOld (different group isOld) rfl)
    · next equal =>
      have joined := Path.compare_eq_iff.mp equal
      rcases List.mem_cons.mp inside with rfl | isOld
      · exact .inl ⟨first, List.mem_cons_self, rfl, by simp [joined]⟩
      · refine .inl (stays group (List.mem_cons_of_mem _ isOld) ?_ rfl)
        rw [Path.compareCongr joined rfl, before group isOld]
        simp
    · next greater =>
      rcases List.mem_cons.mp inside with isFirst | isOld
      · exact .inl (stays first List.mem_cons_self (by simp [greater]) isFirst)
      · rcases inductionHypothesis ordered isOld with ⟨old, isOld, joined⟩ | ⟨isNew, different⟩
        · exact .inl ⟨old, List.mem_cons_of_mem _ isOld, joined⟩
        · refine .inr ⟨isNew, fun old isOld => ?_⟩
          rcases List.mem_cons.mp isOld with rfl | isOld
          · exact fun equal => by simp [Path.compare_eq_iff.mpr equal] at greater
          · exact different old isOld

/-- No path is lost, and the new diagnostic's path is there. -/
theorem addCovers (groups : List FileGroup) (diagnostic : Diagnostic) :
    (∃ group ∈ add groups diagnostic, diagnostic.file.components = group.path.components) ∧
      ∀ old ∈ groups, ∃ group ∈ add groups diagnostic, group.path = old.path := by
  induction groups with
  | nil => simp [add]
  | cons first groups inductionHypothesis =>
    simp only [add]
    split
    · exact ⟨⟨_, List.mem_cons_self, rfl⟩,
        fun old isOld => ⟨old, List.mem_cons_of_mem _ isOld, rfl⟩⟩
    · next equal =>
      refine ⟨⟨_, List.mem_cons_self, Path.compare_eq_iff.mp equal⟩, fun old isOld => ?_⟩
      rcases List.mem_cons.mp isOld with rfl | isOld
      · exact ⟨_, List.mem_cons_self, rfl⟩
      · exact ⟨old, List.mem_cons_of_mem _ isOld, rfl⟩
    · obtain ⟨⟨joined, isJoined, same⟩, kept⟩ := inductionHypothesis
      refine ⟨⟨joined, List.mem_cons_of_mem _ isJoined, same⟩, fun old isOld => ?_⟩
      rcases List.mem_cons.mp isOld with rfl | isOld
      · exact ⟨old, List.mem_cons_self, rfl⟩
      · obtain ⟨group, isGroup, path⟩ := kept old isOld
        exact ⟨group, List.mem_cons_of_mem _ isGroup, path⟩

theorem addOrdered {groups : List FileGroup}
    (ordered : groups.Pairwise fun left right => compare left.path right.path = .lt)
    (diagnostic : Diagnostic) :
    (add groups diagnostic).Pairwise fun left right => compare left.path right.path = .lt := by
  induction groups with
  | nil => simp [add]
  | cons first groups inductionHypothesis =>
    obtain ⟨before, tail⟩ := List.pairwise_cons.mp ordered
    simp only [add]
    split
    · next less =>
      refine List.pairwise_cons.mpr ⟨fun old isOld => ?_, ordered⟩
      rcases List.mem_cons.mp isOld with rfl | isOld
      · exact less
      · exact Std.TransCmp.lt_trans less (before old isOld)
    · exact List.pairwise_cons.mpr ⟨before, tail⟩
    · next greater =>
      refine List.pairwise_cons.mpr ⟨fun group isGroup => ?_, inductionHypothesis tail⟩
      rcases addCases tail isGroup with ⟨old, isOld, path, -⟩ | ⟨rfl, -⟩
      · rw [path]
        exact before old isOld
      · exact Std.OrientedCmp.gt_iff_lt.mp greater

theorem Partitions.add {groups : List FileGroup} {diagnostics : List Diagnostic}
    (partitions : Partitions groups diagnostics) (diagnostic : Diagnostic) :
    Partitions (add groups diagnostic) (diagnostics ++ [diagnostic]) := by
  refine ⟨addOrdered partitions.ordered diagnostic, ?_, ?_, ?_⟩
  · intro group isGroup
    rcases addCases partitions.ordered isGroup with ⟨old, isOld, path, joined⟩ | ⟨rfl, different⟩
    · rw [joined, partitions.members old isOld, path, List.filter_append]
      simp [List.filter_cons]
    · have nothing : diagnostics.filter (fun other =>
          other.file.components = diagnostic.file.components) = [] := by
        refine List.filter_eq_nil_iff.mpr fun other isOther => ?_
        obtain ⟨old, isOld, same⟩ := partitions.covers other isOther
        simpa [same] using fun equal => different old isOld equal.symm
      simp [nothing]
  · intro group isGroup
    rcases addCases partitions.ordered isGroup with ⟨old, isOld, path, joined⟩ | ⟨rfl, -⟩
    · have spelling := partitions.spelling old isOld
      cases members : old.diagnostics with
      | nil => simp [members] at spelling
      | cons first rest => simpa [joined, path, members] using spelling
    · rfl
  · intro other isOther
    obtain ⟨joined, kept⟩ := addCovers groups diagnostic
    rcases List.mem_append.mp isOther with isOld | isNew
    · obtain ⟨old, isOldGroup, same⟩ := partitions.covers other isOld
      obtain ⟨group, isGroup, path⟩ := kept old isOldGroup
      exact ⟨group, isGroup, path ▸ same⟩
    · obtain rfl := List.mem_singleton.mp isNew
      exact joined

/-- Grouping partitions any diagnostics. -/
theorem ofDiagnosticsPartitions (diagnostics : List Diagnostic) :
    Partitions (ofDiagnostics diagnostics) diagnostics := by
  have empty : Partitions [] [] := ⟨.nil, by simp, by simp, by simp⟩
  induction diagnostics using List.reverseRecOn with
  | nil => exact empty
  | append_singleton diagnostics diagnostic inductionHypothesis =>
    rw [ofDiagnostics, List.foldl_append]
    exact inductionHypothesis.add diagnostic

/-- A change that leaves a state alone at every item leaves it alone. -/
theorem foldlStays {State Item : Type} {change : State → Item → State} {items : List Item}
    (stays : ∀ item ∈ items, ∀ state, change state item = state) (state : State) :
    items.foldl change state = state :=
  List.foldlRecOn items change (motive := fun between => between = state) rfl
    fun between same item inside => (stays item inside between).trans same

namespace Partitions

variable {groups : List FileGroup} {diagnostics : List Diagnostic}

/-- The path of a group is the path of one of its diagnostics. -/
theorem pathInside (partitions : Partitions groups diagnostics) {group : FileGroup}
    (inside : group ∈ groups) : ∃ diagnostic ∈ diagnostics, diagnostic.file = group.path := by
  have spelling := partitions.spelling group inside
  cases members : group.diagnostics with
  | nil => simp [members] at spelling
  | cons first rest =>
    have isMember : first ∈ group.diagnostics := members ▸ List.mem_cons_self
    rw [partitions.members group inside] at isMember
    exact ⟨first, List.mem_of_mem_filter isMember, by simpa [members] using spelling⟩

/-- There is only one way to partition diagnostics. -/
theorem unique {others : List FileGroup} (partitions : Partitions groups diagnostics)
    (otherwise : Partitions others diagnostics) : groups = others := by
  have included : ∀ {first second : List FileGroup}, Partitions first diagnostics →
      Partitions second diagnostics → ∀ group ∈ first, group ∈ second := by
    intro first second isFirst isSecond group inside
    obtain ⟨diagnostic, given, path⟩ := isFirst.pathInside inside
    obtain ⟨other, isOther, same⟩ := isSecond.covers diagnostic given
    have sameMembers : group.diagnostics = other.diagnostics := by
      rw [isFirst.members group inside, isSecond.members other isOther, ← same, path]
    have samePath : group.path = other.path := by
      have spelling := isFirst.spelling group inside
      rw [sameMembers, isSecond.spelling other isOther] at spelling
      exact (Option.some.inj spelling).symm
    have equal : group = other := by
      cases group
      cases other
      simp_all
    exact equal ▸ isOther
  have irreflexive : Std.Irrefl fun left right : FileGroup =>
      compare left.path right.path = .lt := ⟨fun group => by simp⟩
  have antisymmetric : Std.Antisymm fun left right : FileGroup =>
      compare left.path right.path = .lt := by
    refine ⟨fun left right less greater => ?_⟩
    have swapped : compare left.path right.path = (compare right.path left.path).swap :=
      Std.OrientedCmp.eq_swap
    rw [swapped, greater] at less
    cases less
  exact partitions.ordered.eq_of_mem_iff otherwise.ordered fun group =>
    ⟨included partitions otherwise group, included otherwise partitions group⟩

/-- The first groups partition the diagnostics of their paths. -/
theorem front {before behind : List FileGroup}
    (partitions : Partitions (before ++ behind) diagnostics) :
    Partitions before (diagnostics.filter fun diagnostic =>
      ∃ group ∈ before, diagnostic.file.components = group.path.components) := by
  have inside : ∀ group ∈ before, group ∈ before ++ behind := fun group isFront =>
    List.mem_append_left behind isFront
  refine ⟨(List.pairwise_append.mp partitions.ordered).1, fun group isFront => ?_,
    fun group isFront => partitions.spelling group (inside group isFront), fun diagnostic given => ?_⟩
  · rw [partitions.members group (inside group isFront), List.filter_filter]
    refine List.filter_congr fun diagnostic _ => ?_
    by_cases own : diagnostic.file.components = group.path.components
    · simpa [own] using ⟨group, isFront, rfl⟩
    · simp [own]
  · simpa using (List.mem_filter.mp given).2

/-- The other groups have other paths. -/
theorem alone (partitions : Partitions groups diagnostics) {group : FileGroup}
    (inside : group ∈ groups) : ∃ before behind, groups = before ++ group :: behind ∧
      (∀ other ∈ before, other.path.components ≠ group.path.components) ∧
      ∀ other ∈ behind, other.path.components ≠ group.path.components := by
  obtain ⟨before, behind, rfl⟩ := List.append_of_mem inside
  have ordered := partitions.ordered
  rw [List.pairwise_append, List.pairwise_cons] at ordered
  obtain ⟨-, ⟨later, -⟩, earlier⟩ := ordered
  refine ⟨before, behind, rfl, fun other isBefore same => ?_, fun other isBehind same => ?_⟩
  · have less := earlier other isBefore group List.mem_cons_self
    rw [Path.compare_eq_iff.mpr same] at less
    cases less
  · have less := later other isBehind
    rw [Path.compare_eq_iff.mpr same.symm] at less
    cases less

/-- What the other groups add nothing to is what one group gives. -/
theorem flatMapAlone (partitions : Partitions groups diagnostics) {Result : Type}
    {results : FileGroup → List Result} {group : FileGroup} (inside : group ∈ groups)
    (others : ∀ other ∈ groups, other.path.components ≠ group.path.components →
      results other = []) : groups.flatMap results = results group := by
  obtain ⟨before, behind, rfl, earlier, later⟩ := partitions.alone inside
  have beforeEmpty : before.flatMap results = [] :=
    List.flatMap_eq_nil_iff.mpr fun other isBefore =>
      others other (by simp [isBefore]) (earlier other isBefore)
  have behindEmpty : behind.flatMap results = [] :=
    List.flatMap_eq_nil_iff.mpr fun other isBehind =>
      others other (by simp [isBehind]) (later other isBehind)
  rw [List.flatMap_append, List.flatMap_cons, beforeEmpty, behindEmpty, List.nil_append,
    List.append_nil]

/-- A diagnostic is in the group of its path, and in no other. -/
theorem members_iff (partitions : Partitions groups diagnostics) {group : FileGroup}
    (inside : group ∈ groups) {diagnostic : Diagnostic} : diagnostic ∈ group.diagnostics ↔
      diagnostic ∈ diagnostics ∧ diagnostic.file.components = group.path.components := by
  rw [partitions.members group inside, List.mem_filter, decide_eq_true_iff]

/-- Together the groups hold the diagnostics. -/
theorem membersPerm (partitions : Partitions groups diagnostics) :
    (groups.flatMap FileGroup.diagnostics).Perm diagnostics := by
  refine List.perm_iff_count.mpr fun diagnostic => ?_
  by_cases given : diagnostic ∈ diagnostics
  · obtain ⟨group, inside, same⟩ := partitions.covers diagnostic given
    rw [List.count_eq_length_filter, List.count_eq_length_filter, List.filter_flatMap,
      partitions.flatMapAlone inside, partitions.members group inside, List.filter_filter]
    · refine congrArg List.length (List.filter_congr fun other _ => ?_)
      by_cases equal : other = diagnostic <;> simp [equal, same]
    · intro other isOther different
      refine List.filter_eq_nil_iff.mpr fun member isMember equal => ?_
      obtain rfl := eq_of_beq equal
      exact different (((partitions.members_iff isOther).mp isMember).2.symm.trans same)
  · rw [List.count_eq_zero_of_not_mem given, List.count_eq_zero_of_not_mem]
    intro inGroups
    obtain ⟨group, inside, isMember⟩ := List.mem_flatMap.mp inGroups
    exact given ((partitions.members_iff inside).mp isMember).1

/-- Results that are some of each group's diagnostics are some of the diagnostics. -/
theorem flatMapSubperm (partitions : Partitions groups diagnostics)
    {results : FileGroup → List Diagnostic}
    (own : ∀ group ∈ groups, (results group).Subperm group.diagnostics) :
    (groups.flatMap results).Subperm diagnostics := by
  suffices all : (groups.flatMap results).Subperm (groups.flatMap FileGroup.diagnostics) from
    all.trans partitions.membersPerm.subperm
  clear partitions
  induction groups with
  | nil => exact List.Subperm.refl _
  | cons group groups inductionHypothesis =>
    rw [List.flatMap_cons, List.flatMap_cons]
    exact (own group List.mem_cons_self).append
      (inductionHypothesis fun other inside => own other (List.mem_cons_of_mem group inside))

/-- Results stand in path order and, within a file, in the order of the file's group. -/
theorem flatMapOrdered (partitions : Partitions groups diagnostics)
    {results : FileGroup → List Diagnostic} {within : Diagnostic → Diagnostic → Prop}
    (own : ∀ group ∈ groups, results group ⊆ group.diagnostics)
    (ordered : ∀ group ∈ groups, (results group).Pairwise within) :
    (groups.flatMap results).Pairwise fun left right => compare left.file right.file = .lt ∨
      left.file.components = right.file.components ∧ within left right := by
  have components : ∀ group ∈ groups, ∀ result ∈ results group,
      result.file.components = group.path.components := fun group inside result isResult =>
    ((partitions.members_iff inside).mp (own group inside isResult)).2
  refine List.pairwise_flatMap.mpr ⟨fun group inside => ?_, ?_⟩
  · refine (ordered group inside).imp_of_mem fun {left right} isLeft isRight holds => ?_
    refine .inr ⟨?_, holds⟩
    rw [components group inside left isLeft, components group inside right isRight]
  · refine partitions.ordered.imp_of_mem fun {first second} isFirst isSecond less => ?_
    intro left isLeft right isRight
    left
    rwa [Path.compareCongr (components first isFirst left isLeft)
      (components second isSecond right isRight)]

/-- At one line of one file stand the diagnostics of that line that the file's group gives. -/
theorem atLineOfFlatMap (partitions : Partitions groups diagnostics)
    {results : FileGroup → List Diagnostic}
    (own : ∀ group ∈ groups, results group ⊆ group.diagnostics) {group : FileGroup}
    (inside : group ∈ groups) (number : Nat) :
    Diagnostic.atLine (groups.flatMap results) group.path number =
      (results group).filter fun diagnostic => diagnostic.line = number := by
  have components : ∀ other ∈ groups, ∀ result ∈ results other,
      result.file.components = other.path.components := fun other isOther result isResult =>
    ((partitions.members_iff isOther).mp (own other isOther isResult)).2
  rw [Diagnostic.atLine, List.filter_flatMap, partitions.flatMapAlone inside]
  · refine List.filter_congr fun result isResult => ?_
    simp [Diagnostic.place, components group inside result isResult]
  · intro other isOther different
    refine List.filter_eq_nil_iff.mpr fun result isResult => ?_
    simp [Diagnostic.place, components other isOther result isResult, different]

end Partitions

end FileGroup

end LintRepair
