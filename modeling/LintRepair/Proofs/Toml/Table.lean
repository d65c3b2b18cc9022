/-
This file shows that headers and keys only add to the tables of a document, and that they leave
alone an entry that they do not name.
-/

import LintRepair.Toml.Table
import Mathlib.Data.List.Basic
import Mathlib.Data.Option.Basic

namespace LintRepair.Toml

/-- The values below which further keys can be defined. -/
def Value.HoldsKeys : Value → Prop
  | .table _ _ | .tables _ => True
  | .text _ | .other | .array _ => False

/-- No key gets lost, and what holds keys goes on holding some. -/
def Entries.Keeps (earlier later : Entries) : Prop :=
  ∀ key value, earlier.lookup key = some value →
    ∃ after, later.lookup key = some after ∧ (value.HoldsKeys → after.HoldsKeys)

/-- A table stays one and keeps its keys. -/
structure Value.Extends (earlier later : Value) : Prop where
  holdsKeys : earlier.HoldsKeys → later.HoldsKeys
  table : ∀ origin children, earlier = .table origin children →
    ∃ origin more, later = .table origin more ∧ Entries.Keeps children more

/-- No key gets lost, and the tables among the values stay tables with all their keys. -/
def Entries.Extends (earlier later : Entries) : Prop :=
  ∀ key value, earlier.lookup key = some value →
    ∃ after, later.lookup key = some after ∧ value.Extends after

section Extension

variable {first second third : Value} {entries between after children more : Entries}

theorem Entries.Keeps.refl (entries : Entries) : entries.Keeps entries :=
  fun _ value present => ⟨value, present, id⟩

theorem Entries.Keeps.trans (kept : entries.Keeps between) (onwards : between.Keeps after) :
    entries.Keeps after := by
  intro key value present
  obtain ⟨middle, stays, holds⟩ := kept key value present
  obtain ⟨last, remains, holdsOn⟩ := onwards key middle stays
  exact ⟨last, remains, holdsOn ∘ holds⟩

theorem Value.Extends.refl (value : Value) : value.Extends value :=
  ⟨id, fun origin children isTable => ⟨origin, children, isTable, .refl children⟩⟩

theorem Value.Extends.trans (extended : first.Extends second) (onwards : second.Extends third) :
    first.Extends third := by
  refine ⟨onwards.holdsKeys ∘ extended.holdsKeys, fun origin children isTable => ?_⟩
  obtain ⟨origin, more, isTable, kept⟩ := extended.table origin children isTable
  obtain ⟨origin, most, isTable, keptOn⟩ := onwards.table origin more isTable
  exact ⟨origin, most, isTable, kept.trans keptOn⟩

theorem Entries.Extends.refl (entries : Entries) : entries.Extends entries :=
  fun _ value present => ⟨value, present, Value.Extends.refl value⟩

theorem Entries.Extends.trans (extended : entries.Extends between)
    (onwards : between.Extends after) : entries.Extends after := by
  intro key value present
  obtain ⟨middle, stays, isExtended⟩ := extended key value present
  obtain ⟨last, remains, isExtendedOn⟩ := onwards key middle stays
  exact ⟨last, remains, isExtended.trans isExtendedOn⟩

theorem Entries.Extends.keeps (extended : entries.Extends after) : entries.Keeps after := by
  intro key value present
  obtain ⟨later, stays, isExtended⟩ := extended key value present
  exact ⟨later, stays, isExtended.holdsKeys⟩

theorem Entries.Extends.present (extended : entries.Extends after) {key : String}
    (present : (entries.lookup key).isSome) : (after.lookup key).isSome := by
  obtain ⟨value, found⟩ := Option.isSome_iff_exists.mp present
  obtain ⟨later, stays, -⟩ := extended key value found
  exact Option.isSome_iff_exists.mpr ⟨later, stays⟩

theorem Entries.Extends.ofTable (extended : children.Extends more) (earlier later : Origin) :
    (Value.table earlier children).Extends (.table later more) := by
  refine ⟨fun _ => trivial, ?_⟩
  rintro origin inside ⟨⟩
  exact ⟨later, more, rfl, extended.keeps⟩

theorem extendsTables (elements more : List Entries) :
    (Value.tables elements).Extends (.tables more) :=
  ⟨fun _ => trivial, by rintro origin children ⟨⟩⟩

end Extension

namespace Entries

/-- A key has a new value. If it had one before, that one holds keys and is extended. All other
entries stay. -/
structure Puts (name : String) (value : Value) (earlier later : Entries) : Prop where
  extended : ∀ old, earlier.lookup name = some old → old.HoldsKeys ∧ old.Extends value
  found : ∀ key, later.lookup key = if key = name then some value else earlier.lookup key

variable {entries after : Entries} {name key : String} {value old : Value}

section Putting

theorem Puts.extends (puts : Puts name value entries after) : entries.Extends after := by
  intro key old present
  by_cases same : key = name
  · subst same
    exact ⟨value, by rw [puts.found, if_pos rfl], (puts.extended old present).2⟩
  · exact ⟨old, by rw [puts.found, if_neg same, present], Value.Extends.refl old⟩

theorem Puts.own (puts : Puts name value entries after) : after.lookup name = some value := by
  rw [puts.found, if_pos rfl]

theorem putsAppended (missing : entries.lookup name = none) (value : Value) :
    Puts name value entries (entries ++ [(name, value)]) := by
  refine ⟨fun old present => ?_, fun key => ?_⟩
  · rw [missing] at present
    cases present
  · rw [List.lookup_append]
    by_cases same : key = name
    · subst same
      simp [missing]
    · have other : (key == name) = false := beq_eq_false_iff_ne.mpr same
      simp [List.lookup_cons, other, same]

theorem lookupReplaced (entries : Entries) (name : String) (value : Value) (key : String) :
    (entries.replace name value).lookup key =
      if key = name then (entries.lookup name).map fun _ => value else entries.lookup key := by
  induction entries with
  | nil => simp [replace]
  | cons entry entries inductionHypothesis =>
    obtain ⟨first, old⟩ := entry
    rw [replace] at inductionHypothesis ⊢
    rw [List.map_cons]
    by_cases isFirst : first = name
    · subst isFirst
      by_cases same : key = first
      · simp [same]
      · have other : (key == first) = false := beq_eq_false_iff_ne.mpr same
        simp [List.lookup_cons, other, same, inductionHypothesis]
    · have apart : (name == first) = false := beq_eq_false_iff_ne.mpr (Ne.symm isFirst)
      by_cases same : key = first
      · subst same
        simp [isFirst]
      · have other : (key == first) = false := beq_eq_false_iff_ne.mpr same
        simp [List.lookup_cons, other, isFirst, inductionHypothesis, apart]

theorem putsReplaced (present : entries.lookup name = some old) (holdsKeys : old.HoldsKeys)
    (isExtended : old.Extends value) : Puts name value entries (entries.replace name value) := by
  refine ⟨fun earlier found => ?_, fun key => ?_⟩
  · obtain rfl : old = earlier := Option.some.inj (present.symm.trans found)
    exact ⟨holdsKeys, isExtended⟩
  · rw [lookupReplaced, present, Option.map_some]

end Putting

section Changes

variable {change : Entries → Option Entries} {part : String} {path : List String}

theorem definePuts (defined : entries.define key value = some after) :
    Puts key value entries after := by
  rw [define] at defined
  split at defined
  · next missing =>
    cases defined
    exact putsAppended missing value
  · cases defined

/-- A dotted key puts its first part. -/
theorem dottedPuts (defined : entries.defineDotted path key value = some after) :
    ∃ own, Puts (path.headD key) own entries after := by
  induction path generalizing entries after with
  | nil => exact ⟨value, definePuts defined⟩
  | cons part path inductionHypothesis =>
    rw [defineDotted.eq_def] at defined
    simp only [Option.bind_eq_bind, Option.pure_def] at defined
    split at defined
    · next missing =>
      obtain ⟨children, -, whole⟩ := Option.bind_eq_some_iff.mp defined
      cases whole
      exact ⟨_, putsAppended missing _⟩
    · next children present =>
      obtain ⟨more, inside, whole⟩ := Option.bind_eq_some_iff.mp defined
      cases whole
      obtain ⟨own, puts⟩ := inductionHypothesis inside
      exact ⟨_, putsReplaced present trivial (puts.extends.ofTable _ _)⟩
    · next children present =>
      split at defined
      · cases defined
      · obtain ⟨more, inside, whole⟩ := Option.bind_eq_some_iff.mp defined
        cases whole
        obtain ⟨own, puts⟩ := inductionHypothesis inside
        exact ⟨_, putsReplaced present trivial (puts.extends.ofTable _ _)⟩
    · next elements present =>
      split at defined
      · obtain ⟨element, -, whole⟩ := Option.bind_eq_some_iff.mp defined
        cases whole
        exact ⟨_, putsReplaced present trivial (extendsTables _ _)⟩
      · cases defined
    · cases defined

theorem changeRound
    (inside : ∀ children more, changeAt change path children = some more → children.Extends more)
    (changed : changeAt change (part :: path) entries = some after) :
    ∃ own, Puts part own entries after ∧ own.HoldsKeys := by
  rw [changeAt] at changed
  simp only [Option.bind_eq_bind, Option.pure_def] at changed
  split at changed
  · next missing =>
    obtain ⟨children, -, whole⟩ := Option.bind_eq_some_iff.mp changed
    cases whole
    exact ⟨_, putsAppended missing _, trivial⟩
  · cases changed
  · next present =>
    obtain ⟨more, stepped, whole⟩ := Option.bind_eq_some_iff.mp changed
    cases whole
    exact ⟨_, putsReplaced present trivial ((inside _ _ stepped).ofTable _ _), trivial⟩
  · next present =>
    split at changed
    · obtain ⟨element, -, whole⟩ := Option.bind_eq_some_iff.mp changed
      cases whole
      exact ⟨_, putsReplaced present trivial (extendsTables _ _), trivial⟩
    · cases changed
  · cases changed

section

variable (extended : ∀ entries after, change entries = some after → entries.Extends after)

include extended

theorem changeExtends (changed : changeAt change path entries = some after) :
    entries.Extends after := by
  induction path generalizing entries after with
  | nil => exact extended _ _ changed
  | cons part path inductionHypothesis =>
    obtain ⟨own, puts, -⟩ := changeRound (fun _ _ => inductionHypothesis) changed
    exact puts.extends

theorem changePuts (changed : changeAt change (part :: path) entries = some after) :
    ∃ own, Puts part own entries after ∧ own.HoldsKeys :=
  changeRound (fun _ _ => changeExtends extended) changed

end

section Behind

variable (apart : part ≠ name) (value : Value)

include apart

theorem lookupBehind (entries : Entries) :
    List.lookup part ((name, value) :: entries) = entries.lookup part := by
  have other : (part == name) = false := beq_eq_false_iff_ne.mpr apart
  simp [List.lookup_cons, other]

theorem replaceBehind (entries : Entries) (old : Value) :
    replace ((name, value) :: entries) part old = (name, value) :: entries.replace part old := by
  simp [replace, apart.symm]

/-- A change in the table at a path leaves alone an entry before it of another name. -/
theorem changeBehind :
    changeAt change (part :: path) ((name, value) :: entries) =
      (changeAt change (part :: path) entries).map fun after => (name, value) :: after := by
  rw [changeAt.eq_def, changeAt.eq_def]
  simp only [lookupBehind apart, replaceBehind apart]
  cases entries.lookup part with
  | none => simp
  | some present =>
    cases present with
    | text | other | array => rfl
    | table origin children => cases origin <;> simp
    | tables elements => cases last : elements.getLast? <;> simp [last]

end Behind

section Headers

/-- What both kinds of headers have in common: they put a value that holds keys, they leave alone an
entry of another name, and they do not write a table for the second time. -/
structure Opens (opener : String → Entries → Option Entries) : Prop where
  puts {key : String} {entries after : Entries} : opener key entries = some after →
    ∃ own, Puts key own entries after ∧ own.HoldsKeys
  behind {key name : String} (apart : key ≠ name) (value : Value) (entries : Entries) :
    opener key ((name, value) :: entries) =
      (opener key entries).map fun after => (name, value) :: after
  once {key : String} {children entries : Entries} :
    entries.lookup key = some (.table .header children) → opener key entries = none

theorem openTableOpens : Opens openTable where
  puts opened := by
    rw [openTable] at opened
    split at opened
    · next missing =>
      cases opened
      exact ⟨_, putsAppended missing _, trivial⟩
    · next children present =>
      cases opened
      exact ⟨_, putsReplaced present trivial ((Extends.refl children).ofTable _ _), trivial⟩
    · cases opened
  behind apart value entries := by
    simp only [openTable, lookupBehind apart, replaceBehind apart]
    cases entries.lookup _ with
    | none => rfl
    | some present =>
      cases present with
      | text | other | array | tables => rfl
      | table origin children => cases origin <;> rfl
  once written := by
    rw [openTable, written]

theorem openElementOpens : Opens openElement where
  puts opened := by
    rw [openElement] at opened
    split at opened
    · next missing =>
      cases opened
      exact ⟨_, putsAppended missing _, trivial⟩
    · next elements present =>
      cases opened
      exact ⟨_, putsReplaced present trivial (extendsTables _ _), trivial⟩
    · cases opened
  behind apart value entries := by
    simp only [openElement, lookupBehind apart, replaceBehind apart]
    cases entries.lookup _ with
    | none => rfl
    | some present => cases present <;> rfl
  once written := by
    rw [openElement, written]

variable {opener : String → Entries → Option Entries}

theorem Opens.putsAt (opens : Opens opener)
    (opened : changeAt (opener key) path entries = some after) :
    ∃ own, Puts (path.headD key) own entries after ∧ own.HoldsKeys := by
  cases path with
  | nil => exact opens.puts opened
  | cons =>
    refine changePuts (fun _ _ inside => ?_) opened
    obtain ⟨own, puts, -⟩ := opens.puts inside
    exact puts.extends

theorem Opens.behindAt (opens : Opens opener) (apart : path.headD key ≠ name) (value : Value)
    (entries : Entries) :
    changeAt (opener key) path ((name, value) :: entries) =
      (changeAt (opener key) path entries).map fun after => (name, value) :: after := by
  cases path with
  | nil => exact opens.behind apart value entries
  | cons => exact changeBehind apart value

end Headers

/-- A change below a table that a header wrote, where that table is the first entry. -/
theorem changeWithin (name : String) (path : List String) (children entries : Entries) :
    changeAt change (name :: path) ((name, .table .header children) :: entries) =
      (changeAt change path children).map fun more =>
        replace ((name, .table .header children) :: entries) name (.table .header more) := by
  cases changed : changeAt change path children <;> simp [changeAt, changed]

end Changes

end Entries

end LintRepair.Toml
