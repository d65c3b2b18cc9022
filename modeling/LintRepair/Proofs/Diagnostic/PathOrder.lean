/-
This file describes the path order apart from the keys by which paths are compared: paths are
ordered by the first components in which they differ, and names by their bytes. Grouping by file is
an ordered partition under this order.
-/

import LintRepair.Proofs.Diagnostic.FileGroup
import LintRepair.Proofs.Text.Encoding

namespace LintRepair

open Text

namespace Path

/-- The root stands before a dot, a dot before two dots, and these stand before every name. Names
are ordered by their bytes, and the beginning of a name stands before it. -/
inductive Component.Before : Component → Component → Prop
  | rootCurrent : Before root current
  | rootParent : Before root parent
  | rootName (text : List Char) : Before root (name text)
  | currentParent : Before current parent
  | currentName (text : List Char) : Before current (name text)
  | parentName (text : List Char) : Before parent (name text)
  | names {first second : List Char} (less : encodedText first < encodedText second) :
      Before (name first) (name second)

/-- A path stands before another one if it is its beginning, or by the first components in which
they differ. -/
def Before (left right : Path) : Prop :=
  List.Lex Component.Before left.components right.components

/-- Lists are compared by the first of their items that differ. -/
theorem compareMapped_iff {Item Key : Type} [Ord Key] [Std.LawfulEqOrd Key] {key : Item → Key}
    (injective : Function.Injective key) {Less : Item → Item → Prop}
    (less : ∀ left right, compare (key left) (key right) = .lt ↔ Less left right)
    (left right : List Item) :
    compare (left.map key) (right.map key) = .lt ↔ List.Lex Less left right := by
  induction left generalizing right with
  | nil =>
    cases right with
    | nil => simp
    | cons second right => simp [List.compare_nil_cons]
  | cons first left inductionHypothesis =>
    cases right with
    | nil => simp [List.compare_cons_nil]
    | cons second right =>
      rw [List.map_cons, List.map_cons, List.compare_cons_cons, Ordering.then_eq_lt, less,
        Std.LawfulEqOrd.compare_eq_iff_eq, injective.eq_iff, inductionHypothesis,
        List.cons_lex_cons_iff]

theorem encodedLess {left right : List Char}
    (less : List.Lex (fun first second => first.toNat < second.toNat) left right) :
    encodedText left < encodedText right := by
  induction less with
  | @nil character text =>
    obtain ⟨byte, bytes, encodes⟩ := List.exists_cons_of_ne_nil
      (String.utf8EncodeChar_ne_nil (c := character))
    rw [encodedTextCons, encodes]
    exact List.nil_lt_cons _ _
  | rel differs => exact encodingOrder differs _ _
  | cons _ inductionHypothesis =>
    rw [encodedTextCons, encodedTextCons]
    exact List.append_left_lt inductionHypothesis

/-- Names are compared by their characters, which is the order of their bytes. -/
theorem compareNames_iff (left right : List Char) :
    compare (left.map Char.toNat) (right.map Char.toNat) = .lt ↔
      encodedText left < encodedText right := by
  have injective : Function.Injective Char.toNat := fun _ _ => Char.toNat_inj.mp
  have byCharacters := compareMapped_iff injective
    (fun left right => Nat.compare_eq_lt)
  rw [byCharacters]
  refine ⟨encodedLess, fun less => ?_⟩
  -- Of two different names one stands before the other.
  cases order : compare (left.map Char.toNat) (right.map Char.toNat) with
  | lt => exact (byCharacters left right).mp order
  | eq =>
    rw [Std.LawfulEqOrd.compare_eq_iff_eq, (List.map_injective_iff.mpr injective).eq_iff] at order
    exact absurd (order ▸ less) (List.lt_irrefl _)
  | gt =>
    have swapped := encodedLess ((byCharacters right left).mp (Std.OrientedCmp.gt_iff_lt.mp order))
    exact absurd swapped (List.lt_asymm less)

theorem compareComponents_iff (left right : Component) :
    compare left.key right.key = .lt ↔ left.Before right := by
  have sameKind : ∀ first second : List Char,
      compare (Component.name first).key (Component.name second).key =
        compare (first.map Char.toNat) (second.map Char.toNat) := fun _ _ => rfl
  constructor
  · intro less
    cases left with
    | root => cases right <;> first | constructor | cases less
    | current => cases right <;> first | constructor | cases less
    | parent => cases right <;> first | constructor | cases less
    | name first =>
      cases right with
      | name second => exact .names ((compareNames_iff first second).mp (sameKind _ _ ▸ less))
      | root => cases less
      | current => cases less
      | parent => cases less
  · intro before
    cases before with
    | names less => rw [sameKind, compareNames_iff]; exact less
    | _ => rfl

theorem compareBefore_iff {left right : Path} :
    compare left right = .lt ↔ left.Before right :=
  compareMapped_iff (fun _ _ => Component.keyInjective) compareComponents_iff _ _

theorem Before.trans {first second third : Path} (left : first.Before second)
    (right : second.Before third) : first.Before third :=
  compareBefore_iff.mp
    (Std.TransCmp.lt_trans (compareBefore_iff.mpr left) (compareBefore_iff.mpr right))

end Path

namespace FileGroup

/-- Two diagnostics share a group exactly if their paths have the same components. -/
theorem Partitions.together_iff {groups : List FileGroup} {diagnostics : List Diagnostic}
    (partitions : Partitions groups diagnostics) {left right : Diagnostic}
    (isLeft : left ∈ diagnostics) (isRight : right ∈ diagnostics) :
    (∃ group ∈ groups, left ∈ group.diagnostics ∧ right ∈ group.diagnostics) ↔
      left.file.components = right.file.components := by
  constructor
  · rintro ⟨group, inside, leftInside, rightInside⟩
    rw [((partitions.members_iff inside).mp leftInside).2,
      ((partitions.members_iff inside).mp rightInside).2]
  · intro same
    obtain ⟨group, inside, own⟩ := partitions.covers left isLeft
    exact ⟨group, inside, (partitions.members_iff inside).mpr ⟨isLeft, own⟩,
      (partitions.members_iff inside).mpr ⟨isRight, same.symm.trans own⟩⟩

/-- The path order is total, and equality in it is equality of the components. The groups of any
diagnostics stand in this order and none is empty. Each holds the diagnostics of its path in their
order under the spelling of the first, two diagnostics share a group exactly if their paths have the
same components, and the groups together hold every diagnostic as often as it was given. -/
theorem groupsPartition :
    (∀ left right : Path, (compare left right = .lt ↔ left.Before right) ∧
      (compare left right = .eq ↔ left.components = right.components) ∧
      (compare left right = .gt ↔ right.Before left)) ∧
    (∀ first second third : Path,
      first.Before second → second.Before third → first.Before third) ∧
    ∀ diagnostics : List Diagnostic,
      (ofDiagnostics diagnostics).Pairwise (fun left right => left.path.Before right.path) ∧
      (∀ group ∈ ofDiagnostics diagnostics, group.diagnostics ≠ [] ∧
        group.diagnostics.head?.map Diagnostic.file = some group.path ∧
        group.diagnostics = diagnostics.filter fun diagnostic =>
          diagnostic.file.components = group.path.components) ∧
      (∀ left ∈ diagnostics, ∀ right ∈ diagnostics,
        (∃ group ∈ ofDiagnostics diagnostics,
          left ∈ group.diagnostics ∧ right ∈ group.diagnostics) ↔
            left.file.components = right.file.components) ∧
      ((ofDiagnostics diagnostics).flatMap FileGroup.diagnostics).Perm diagnostics := by
  refine ⟨fun left right => ⟨Path.compareBefore_iff, Path.compare_eq_iff, ?_⟩,
    fun _ _ _ => Path.Before.trans, fun diagnostics => ?_⟩
  · rw [Std.OrientedCmp.gt_iff_lt, Path.compareBefore_iff]
  · have partitions := ofDiagnosticsPartitions diagnostics
    refine ⟨partitions.ordered.imp Path.compareBefore_iff.mp, fun group inside => ?_,
      fun left isLeft right isRight => partitions.together_iff isLeft isRight,
      partitions.membersPerm⟩
    have spelling := partitions.spelling group inside
    refine ⟨?_, spelling, partitions.members group inside⟩
    rintro empty
    simp [empty] at spelling

-- A slash is not ordered by its own code; it ends a component.
example : compare (⟨"a/b"⟩ : Path) ⟨"a-b"⟩ = .lt ∧ compare (⟨"./a//b/."⟩ : Path) ⟨"./a/b"⟩ = .eq ∧
    compare (⟨"b"⟩ : Path) ⟨"../c"⟩ = .gt := by
  decide +kernel

end FileGroup

end LintRepair
