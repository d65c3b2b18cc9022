/-
This file cuts a list at a separator.
-/

namespace LintRepair.Text

variable {Item : Type} [DecidableEq Item]

/-- The parts between the separators, which are left out. There is one part more than there are
separators, and parts may be empty. -/
def separate (separator : Item) : List Item → List (List Item)
  | [] => [[]]
  | item :: items =>
    if item = separator then [] :: separate separator items
    else
      match separate separator items with
      | [] => [[item]]
      | part :: parts => (item :: part) :: parts

theorem separateNeNil (separator : Item) (items : List Item) :
    separate separator items ≠ [] := by
  cases items with
  | nil => simp [separate]
  | cons item items =>
    simp only [separate]
    split
    · simp
    · split <;> simp

theorem separateAppend (separator : Item) (left right : List Item) :
    separate separator (left ++ separator :: right) =
      separate separator left ++ separate separator right := by
  induction left with
  | nil => simp [separate]
  | cons item left inductionHypothesis =>
    by_cases equal : item = separator
    · simp [separate, equal, inductionHypothesis]
    · simp only [List.cons_append, separate, equal, ↓reduceIte, inductionHypothesis]
      cases parts : separate separator left with
      | nil => exact absurd parts (separateNeNil separator left)
      | cons part parts => simp

/-- A list without the separator is one part. -/
theorem separateWhole {separator : Item} {items : List Item} (absent : separator ∉ items) :
    separate separator items = [items] := by
  induction items with
  | nil => rfl
  | cons item items inductionHypothesis =>
    have different : item ≠ separator := fun equal => absent (equal ▸ List.mem_cons_self)
    have rest := inductionHypothesis fun inside => absent (List.mem_cons_of_mem item inside)
    simp [separate, different, rest]

/-- Parts without the separator, each of them ended by one, are cut into these parts. -/
theorem separateEnded {separator : Item} {parts : List (List Item)}
    (absent : ∀ part ∈ parts, separator ∉ part) (behind : List Item) :
    separate separator (parts.flatMap (fun part => part ++ [separator]) ++ behind) =
      parts ++ separate separator behind := by
  induction parts with
  | nil => rfl
  | cons part parts inductionHypothesis =>
    have rest := inductionHypothesis fun other inside =>
      absent other (List.mem_cons_of_mem part inside)
    rw [List.flatMap_cons, List.append_assoc, List.append_assoc, List.singleton_append,
      separateAppend, separateWhole (absent part List.mem_cons_self)]
    exact congrArg (part :: ·) rest

/-- What holds of a list without the separator, and of such a part before any list of which it holds,
holds of every list. -/
theorem separateInduction (separator : Item) {Holds : List Item → Prop}
    (last : ∀ part, separator ∉ part → Holds part)
    (further : ∀ part items, separator ∉ part → Holds items → Holds (part ++ separator :: items))
    (items : List Item) : Holds items := by
  induction size : items.length using Nat.strongRecOn generalizing items with
  | ind length inductionHypothesis =>
    by_cases inside : separator ∈ items
    · obtain ⟨part, rest, rfl, absent⟩ := List.eq_append_cons_of_mem inside
      have shorter : rest.length < length := by
        rw [List.length_append, List.length_cons] at size
        omega
      exact further part rest absent (inductionHypothesis rest.length shorter rest rfl)
    · exact last items inside

/-- No part holds the separator. -/
theorem separatorNotInPart {separator : Item} {items part : List Item}
    (isPart : part ∈ separate separator items) : separator ∉ part := by
  induction items generalizing part with
  | nil => simp_all [separate]
  | cons item items inductionHypothesis =>
    simp only [separate] at isPart
    split at isPart
    · rcases List.mem_cons.mp isPart with rfl | inRest
      · simp
      · exact inductionHypothesis inRest
    · next different =>
      split at isPart
      · next parts => exact absurd parts (separateNeNil separator items)
      · next first rest parts =>
        rw [parts] at inductionHypothesis
        rcases List.mem_cons.mp isPart with rfl | inRest
        · simpa [Ne.symm different] using inductionHypothesis List.mem_cons_self
        · exact inductionHypothesis (List.mem_cons_of_mem _ inRest)

end LintRepair.Text
