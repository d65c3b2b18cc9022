/-
This file shows what the order of diagnostics decides: not which groups there are, and within a
line only the order of the diagnostics of that line.
-/

import LintRepair.Proofs.Diagnostic.FileGroup
import LintRepair.Proofs.Diagnostic.LineOrder

namespace LintRepair

namespace Diagnostic

/-- Paths with the same components have the same spelling. -/
def SpelledAlike (diagnostics : List Diagnostic) : Prop :=
  ∀ left ∈ diagnostics, ∀ right ∈ diagnostics,
    left.file.components = right.file.components → left.file = right.file

theorem SpelledAlike.subset {diagnostics chosen : List Diagnostic}
    (spelled : SpelledAlike diagnostics) (inside : chosen ⊆ diagnostics) : SpelledAlike chosen :=
  fun left isLeft right isRight => spelled left (inside isLeft) right (inside isRight)

/-- Diagnostics sorted by line are determined by what stands on each line. -/
theorem sortedByLines {first second : List Diagnostic}
    (firstSorted : first.Pairwise fun left right => right.line ≤ left.line)
    (secondSorted : second.Pairwise fun left right => right.line ≤ left.line)
    (same : ∀ number, first.filter (fun diagnostic => diagnostic.line = number) =
      second.filter fun diagnostic => diagnostic.line = number) : first = second := by
  have included : ∀ {one other : List Diagnostic}, (∀ number : Nat,
      one.filter (fun diagnostic => diagnostic.line = number) =
        other.filter fun diagnostic => diagnostic.line = number) →
      ∀ diagnostic ∈ one, diagnostic ∈ other := by
    intro one other agree diagnostic inside
    have member : diagnostic ∈ one.filter fun other => other.line = diagnostic.line := by
      simp [inside]
    rw [agree] at member
    exact List.mem_of_mem_filter member
  induction first generalizing second with
  | nil =>
    cases second with
    | nil => rfl
    | cons next rest => cases included (fun number => (same number).symm) next List.mem_cons_self
  | cons highest first inductionHypothesis =>
    cases second with
    | nil => cases included same highest List.mem_cons_self
    | cons next second =>
      obtain ⟨belowHighest, firstTail⟩ := List.pairwise_cons.mp firstSorted
      obtain ⟨belowNext, secondTail⟩ := List.pairwise_cons.mp secondSorted
      -- Neither of the two lines lies above the other.
      have upper : highest.line ≤ next.line := by
        rcases List.mem_cons.mp (included same highest List.mem_cons_self) with rfl | later
        · exact Nat.le_refl _
        · exact belowNext highest later
      have lower : next.line ≤ highest.line := by
        rcases List.mem_cons.mp
          (included (fun number => (same number).symm) next List.mem_cons_self) with rfl | later
        · exact Nat.le_refl _
        · exact belowHighest next later
      have sameLine : next.line = highest.line := Nat.le_antisymm lower upper
      have heads := same highest.line
      simp only [List.filter_cons, sameLine, decide_true, ↓reduceIte, List.cons.injEq] at heads
      obtain ⟨rfl, -⟩ := heads
      refine congrArg (highest :: ·) (inductionHypothesis firstTail secondTail fun number => ?_)
      have tails := same number
      simp only [List.filter_cons] at tails
      split at tails
      · exact (List.cons.inj tails).2
      · exact tails

/-- The sort by line does not see in which order different lines were given. -/
theorem descendingByLines {first second : List Diagnostic}
    (same : ∀ number, first.filter (fun diagnostic => diagnostic.line = number) =
      second.filter fun diagnostic => diagnostic.line = number) :
    descending first = descending second := by
  refine sortedByLines (descendingSorted first) (descendingSorted second) fun number => ?_
  rw [descendingLine, descendingLine, same]

end Diagnostic

namespace FileGroup

/-- The group of the same path among other diagnostics. -/
def among (diagnostics : List Diagnostic) (group : FileGroup) : FileGroup :=
  ⟨group.path, diagnostics.filter fun diagnostic =>
    diagnostic.file.components = group.path.components⟩

theorem amongPerm {groups : List FileGroup} {first second : List Diagnostic}
    (partitions : Partitions groups first) (perm : first.Perm second) {group : FileGroup}
    (inside : group ∈ groups) : group.diagnostics.Perm (among second group).diagnostics := by
  rw [partitions.members group inside]
  exact perm.filter _

/-- The same diagnostics in another order have groups of the same paths. -/
theorem ofReordered {first second : List Diagnostic} (perm : first.Perm second)
    (spelled : Diagnostic.SpelledAlike first) :
    ofDiagnostics second = (ofDiagnostics first).map (among second) := by
  have partitions := ofDiagnosticsPartitions first
  refine (ofDiagnosticsPartitions second).unique ⟨?_, ?_, ?_, ?_⟩
  · exact List.pairwise_map.mpr partitions.ordered
  · intro other inside
    obtain ⟨group, -, rfl⟩ := List.mem_map.mp inside
    rfl
  · intro other inside
    obtain ⟨group, isGroup, rfl⟩ := List.mem_map.mp inside
    obtain ⟨named, isNamed, path⟩ := partitions.pathInside isGroup
    have own : named ∈ (among second group).diagnostics := by
      simp [among, perm.subset isNamed, path]
    cases members : (among second group).diagnostics with
    | nil =>
      rw [members] at own
      cases own
    | cons head rest =>
      have isHead : head ∈ (among second group).diagnostics := members ▸ List.mem_cons_self
      obtain ⟨isGiven, same⟩ := List.mem_filter.mp isHead
      have alike := spelled head (perm.symm.subset isGiven) named isNamed
        (by rw [of_decide_eq_true same, path])
      rw [List.head?_cons, Option.map_some, alike, path]
      rfl
  · intro diagnostic given
    obtain ⟨group, isGroup, same⟩ := partitions.covers diagnostic (perm.symm.subset given)
    exact ⟨among second group, List.mem_map_of_mem isGroup, same⟩

end FileGroup

end LintRepair
