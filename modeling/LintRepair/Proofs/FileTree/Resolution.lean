/-
This file shows that a path leads where its components lead: two spellings with the same components
name the same place, if they name any.
-/

import LintRepair.FileTree.Resolution
import Mathlib.Tactic.Common

namespace LintRepair

namespace Path

/-- The components that lead on from a directory. The others only tell where a path begins. -/
def Component.leads : Component → Bool
  | parent | name _ => true
  | root | current => false

theorem leadsOfComponent {part : List Char} {component : Component}
    (known : component? part = some component) : component.leads = true := by
  unfold component? at known
  split at known
  · cases known
  · cases known
  · cases known
    rfl
  · cases known
    rfl

theorem filterNamed (parts : List (List Char)) :
    (parts.filterMap component?).filter Component.leads = parts.filterMap component? := by
  refine List.filter_eq_self.mpr fun component inside => ?_
  obtain ⟨part, -, known⟩ := List.mem_filterMap.mp inside
  exact leadsOfComponent known

/-- Where a path begins is not told by the components that lead on. -/
theorem componentsLeads (path : Path) :
    path.components.filter Component.leads = path.parts.filterMap component? := by
  unfold components
  split
  · simp [Component.leads, filterNamed]
  · simp [Component.leads, filterNamed]
  · exact filterNamed _

end Path

namespace FileTree

/-- The same parts but for some that have no component. -/
inductive Drops : List (List Char) → List (List Char) → Prop
  | nil : Drops [] []
  | keep {part : List Char} {parts fewer : List (List Char)} (rest : Drops parts fewer) :
      Drops (part :: parts) (part :: fewer)
  | drop {part : List Char} {parts fewer : List (List Char)}
      (unnamed : Path.component? part = none) (rest : Drops parts fewer) :
      Drops (part :: parts) fewer

theorem Drops.behind {parts fewer : List (List Char)} (drops : Drops parts fewer)
    (front : List (List Char)) : Drops (front ++ parts) (front ++ fewer) := by
  induction front with
  | nil => exact drops
  | cons part front inductionHypothesis => exact .keep inductionHypothesis

theorem dropsUnnamed (parts : List (List Char)) :
    Drops parts (parts.filter fun part => (Path.component? part).isSome) := by
  induction parts with
  | nil => exact .nil
  | cons part parts inductionHypothesis =>
    cases known : Path.component? part with
    | none => simpa [known] using Drops.drop known inductionHypothesis
    | some component => simpa [known] using Drops.keep inductionHypothesis

/-- A part without a component leads nowhere else. -/
theorem leadWithoutComponent {tree : FileTree} {location : Location} {lead : Lead}
    {part : List Char} (unnamed : Path.component? part = none)
    (leads : tree.lead location part = .ok lead) : lead = .place location := by
  simp only [FileTree.lead, unnamed] at leads
  split at leads
  · exact (Except.ok.inj leads).symm
  · cases leads
  · cases leads

section

variable {tree : FileTree}
  {through : Location → List (List Char) → Except FileError Location}

theorem followDrops
    (throughDrops : ∀ location finish parts fewer, Drops parts fewer →
      through location parts = .ok finish → through location fewer = .ok finish)
    {parts fewer : List (List Char)} (drops : Drops parts fewer) {location finish : Location}
    (leads : tree.follow through location parts = .ok finish) :
    tree.follow through location fewer = .ok finish := by
  induction drops generalizing location with
  | nil => exact leads
  | @keep part parts fewer rest inductionHypothesis =>
    rw [follow] at leads ⊢
    cases first : tree.lead location part with
    | error error => simp [first] at leads
    | ok lead =>
      rw [first] at leads
      cases lead with
      | place next => exact inductionHypothesis leads
      | link target => exact throughDrops _ _ _ _ (rest.behind _) leads
  | @drop part parts fewer unnamed rest inductionHypothesis =>
    rw [follow] at leads
    cases first : tree.lead location part with
    | error error => simp [first] at leads
    | ok lead =>
      obtain rfl := leadWithoutComponent unnamed first
      rw [first] at leads
      exact inductionHypothesis leads

/-- Parts without a component can be left out of a path that leads somewhere, whichever links it
passes. -/
theorem walkDrops (links : Nat) {location finish : Location} {parts fewer : List (List Char)}
    (drops : Drops parts fewer) (leads : tree.walk links location parts = .ok finish) :
    tree.walk links location fewer = .ok finish := by
  induction links generalizing location finish parts fewer with
  | zero => exact followDrops (fun _ _ _ _ _ leads => by cases leads) drops leads
  | succ links inductionHypothesis =>
    have throughDrops : ∀ location finish parts fewer, Drops parts fewer →
        tree.walk links location parts = .ok finish → tree.walk links location fewer = .ok finish :=
      fun _ _ _ _ rest passes => inductionHypothesis rest passes
    exact followDrops throughDrops drops leads

/-- One step depends on the component alone. -/
theorem leadOfComponent (tree : FileTree) (location : Location) {first second : List Char}
    (same : Path.component? first = Path.component? second) :
    tree.lead location first = tree.lead location second := by
  simp only [lead, same]

theorem followSameComponents
    (throughSame : ∀ location first second,
      first.map Path.component? = second.map Path.component? →
        through location first = through location second)
    {first second : List (List Char)}
    (same : first.map Path.component? = second.map Path.component?) (location : Location) :
    tree.follow through location first = tree.follow through location second := by
  induction first generalizing second location with
  | nil =>
    obtain rfl : second = [] := by simpa using same.symm
    rfl
  | cons part first inductionHypothesis =>
    cases second with
    | nil => simp at same
    | cons other second =>
      obtain ⟨sameHead, sameTail⟩ := List.cons_eq_cons.mp same
      rw [follow, follow, leadOfComponent tree location sameHead]
      cases tree.lead location other with
      | error error => rfl
      | ok lead =>
        cases lead with
        | place next => exact inductionHypothesis sameTail next
        | link target => exact throughSame _ _ _ (by rw [List.map_append, List.map_append, sameTail])

theorem walkSameComponents (links : Nat) {first second : List (List Char)}
    (same : first.map Path.component? = second.map Path.component?) (location : Location) :
    tree.walk links location first = tree.walk links location second := by
  induction links generalizing first second location with
  | zero => exact followSameComponents (fun _ _ _ _ => rfl) same location
  | succ links inductionHypothesis =>
    rw [walk]
    exact followSameComponents (fun location _ _ same => inductionHypothesis same location) same _

end

theorem mapNamed (parts : List (List Char)) :
    (parts.filter fun part => (Path.component? part).isSome).map Path.component? =
      (parts.filterMap Path.component?).map some := by
  induction parts with
  | nil => rfl
  | cons part parts inductionHypothesis =>
    cases known : Path.component? part <;> simp [known, inductionHypothesis]

/-- A path that leads anywhere is followed component by component, from the root or from the
working directory. -/
theorem resolveComponents {tree : FileTree} {path : Path} {location : Location}
    (leads : tree.resolve path = .ok location) :
    ∃ parts : List (List Char), parts.map Path.component? =
        (path.components.filter Path.Component.leads).map some ∧
      tree.walk linkLimit (startOf path tree.workingDirectory) parts = .ok location := by
  rw [path.componentsLeads, ← mapNamed]
  refine ⟨_, rfl, walkDrops linkLimit (dropsUnnamed path.parts) ?_⟩
  unfold resolve resolveFrom at leads
  split at leads
  · cases leads
  · split at leads
    · cases leads
    · split at leads
      · cases leads
      · exact leads

/-- Two paths with the same components that both lead somewhere lead to the same place. -/
theorem resolveSameComponents {tree : FileTree} {first second : Path}
    {firstLocation secondLocation : Location} (same : first.components = second.components)
    (firstLeads : tree.resolve first = .ok firstLocation)
    (secondLeads : tree.resolve second = .ok secondLocation) : firstLocation = secondLocation := by
  obtain ⟨firstParts, firstMap, firstWalk⟩ := resolveComponents firstLeads
  obtain ⟨secondParts, secondMap, secondWalk⟩ := resolveComponents secondLeads
  have sameStart : startOf first tree.workingDirectory = startOf second tree.workingDirectory := by
    rw [startOf, startOf, same]
  rw [same] at firstMap
  rw [sameStart, walkSameComponents linkLimit (firstMap.trans secondMap.symm), secondWalk]
    at firstWalk
  exact (Except.ok.inj firstWalk).symm

end FileTree

end LintRepair
