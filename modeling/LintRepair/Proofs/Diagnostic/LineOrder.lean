/-
This file shows that the sorts by line are stable: they order the lines and keep the order of the
diagnostics within a line.
-/

import LintRepair.Diagnostic.LineOrder
import Mathlib.Data.List.Sort

namespace LintRepair.Diagnostic

theorem insertByOrderedInsert (notAfter : Diagnostic → Diagnostic → Bool) (diagnostic : Diagnostic)
    (diagnostics : List Diagnostic) :
    insertBy notAfter diagnostic diagnostics =
      diagnostics.orderedInsert (fun left right => notAfter left right = true) diagnostic := by
  induction diagnostics with
  | nil => rfl
  | cons next rest inductionHypothesis =>
    simp only [insertBy, List.orderedInsert_cons, inductionHypothesis]

/-- The sort is the insertion sort of the library. -/
theorem sortByInsertionSort (notAfter : Diagnostic → Diagnostic → Bool)
    (diagnostics : List Diagnostic) :
    sortBy notAfter diagnostics =
      diagnostics.insertionSort fun left right => notAfter left right = true := by
  induction diagnostics with
  | nil => rfl
  | cons diagnostic diagnostics inductionHypothesis =>
    rw [List.insertionSort_cons, ← inductionHypothesis, ← insertByOrderedInsert]
    rfl

theorem filterInsertBy {notAfter : Diagnostic → Diagnostic → Bool} {chosen : Diagnostic → Bool}
    (tied : ∀ left right, chosen left → chosen right → notAfter left right)
    (diagnostic : Diagnostic) (diagnostics : List Diagnostic) :
    (insertBy notAfter diagnostic diagnostics).filter chosen =
      (diagnostic :: diagnostics).filter chosen := by
  induction diagnostics with
  | nil => rfl
  | cons next rest inductionHypothesis =>
    simp only [insertBy]
    split
    · rfl
    · next after =>
      -- The two are not tied, so at most one of them is chosen.
      by_cases first : chosen diagnostic
      · have second : chosen next = false := by
          by_contra isChosen
          exact after (tied diagnostic next first (by simpa using isChosen))
        simpa [first, second] using inductionHypothesis
      · simp only [List.filter_cons, first, Bool.false_eq_true, ↓reduceIte] at inductionHypothesis ⊢
        rw [inductionHypothesis]

/-- Diagnostics that need not follow one another keep their order. -/
theorem filterSortBy {notAfter : Diagnostic → Diagnostic → Bool} {chosen : Diagnostic → Bool}
    (tied : ∀ left right, chosen left → chosen right → notAfter left right)
    (diagnostics : List Diagnostic) :
    (sortBy notAfter diagnostics).filter chosen = diagnostics.filter chosen := by
  induction diagnostics with
  | nil => rfl
  | cons diagnostic diagnostics inductionHypothesis =>
    rw [sortBy, List.foldr_cons, filterInsertBy tied, List.filter_cons, List.filter_cons]
    exact congrArg (fun rest => if chosen diagnostic then diagnostic :: rest else rest)
      inductionHypothesis

/-- The sort orders by any total and transitive comparison. -/
theorem sortBySorted {notAfter : Diagnostic → Diagnostic → Bool}
    (total : ∀ left right, notAfter left right ∨ notAfter right left)
    (transitive : ∀ first second third, notAfter first second → notAfter second third →
      notAfter first third) (diagnostics : List Diagnostic) :
    (sortBy notAfter diagnostics).Pairwise fun left right => notAfter left right := by
  rw [sortByInsertionSort]
  have isTotal : Std.Total fun left right => notAfter left right = true := ⟨total⟩
  have isTransitive : IsTrans Diagnostic fun left right => notAfter left right = true :=
    ⟨transitive⟩
  exact List.pairwise_insertionSort _ _

theorem descendingSorted (diagnostics : List Diagnostic) :
    (descending diagnostics).Pairwise fun left right => right.line ≤ left.line := by
  refine (sortBySorted ?_ ?_ diagnostics).imp of_decide_eq_true
  · intro left right
    simp only [decide_eq_true_eq]
    omega
  · intro first second third
    simp only [decide_eq_true_eq]
    omega

theorem ascendingSorted (diagnostics : List Diagnostic) :
    (ascending diagnostics).Pairwise fun left right => left.line ≤ right.line := by
  refine (sortBySorted ?_ ?_ diagnostics).imp of_decide_eq_true
  · intro left right
    simp only [decide_eq_true_eq]
    omega
  · intro first second third
    simp only [decide_eq_true_eq]
    omega

theorem descendingLine (number : Nat) (diagnostics : List Diagnostic) :
    (descending diagnostics).filter (fun diagnostic => diagnostic.line = number) =
      diagnostics.filter fun diagnostic => diagnostic.line = number := by
  refine filterSortBy (fun left right first second => ?_) diagnostics
  simp only [decide_eq_true_eq] at first second ⊢
  omega

theorem ascendingLine (number : Nat) (diagnostics : List Diagnostic) :
    (ascending diagnostics).filter (fun diagnostic => diagnostic.line = number) =
      diagnostics.filter fun diagnostic => diagnostic.line = number := by
  refine filterSortBy (fun left right first second => ?_) diagnostics
  simp only [decide_eq_true_eq] at first second ⊢
  omega

/-- Sorted diagnostics of which no two share a line stand in strict order. -/
theorem strictlyDescending {diagnostics : List Diagnostic}
    (sorted : diagnostics.Pairwise fun left right => right.line ≤ left.line)
    (single : ∀ number, (diagnostics.filter fun diagnostic => diagnostic.line = number).length ≤ 1) :
    diagnostics.Pairwise fun left right => right.line < left.line := by
  induction diagnostics with
  | nil => exact List.Pairwise.nil
  | cons first rest inductionHypothesis =>
    obtain ⟨firstAbove, restSorted⟩ := List.pairwise_cons.mp sorted
    have restSingle : ∀ number,
        (rest.filter fun diagnostic => diagnostic.line = number).length ≤ 1 := by
      intro number
      have shorter := ((List.sublist_cons_self first rest).filter
        fun diagnostic => decide (diagnostic.line = number)).length_le
      exact Nat.le_trans shorter (single number)
    refine List.pairwise_cons.mpr ⟨fun other inRest => ?_, inductionHypothesis restSorted restSingle⟩
    have above := firstAbove other inRest
    by_contra notBelow
    have sameLine : other.line = first.line := by omega
    have shared : 0 < (rest.filter fun diagnostic => diagnostic.line = first.line).length :=
      List.length_pos_of_mem (List.mem_filter.mpr ⟨inRest, by simpa using sameLine⟩)
    have alone := single first.line
    rw [List.filter_cons_of_pos (by simp), List.length_cons] at alone
    omega

/-- Diagnostics are the same in another order when every line has the same ones. -/
theorem permOfLines {first second : List Diagnostic}
    (sameLines : ∀ number, first.filter (fun diagnostic => diagnostic.line = number) =
      second.filter fun diagnostic => diagnostic.line = number) : first.Perm second := by
  rw [List.perm_iff_count]
  intro diagnostic
  have onLine : ∀ diagnostics : List Diagnostic, diagnostics.count diagnostic =
      (diagnostics.filter fun other => other.line = diagnostic.line).count diagnostic := by
    intro diagnostics
    rw [List.count_filter (by simp)]
  rw [onLine first, onLine second, sameLines]

/-- Lists of diagnostics are equally long when every line has as many in the one as in the other. -/
theorem lengthOfLines {first second : List Diagnostic}
    (sameLines : ∀ number, (first.filter fun diagnostic => diagnostic.line = number).length =
      (second.filter fun diagnostic => diagnostic.line = number).length) :
    first.length = second.length := by
  have countLine : ∀ (diagnostics : List Diagnostic) (number : Nat),
      (diagnostics.map Diagnostic.line).count number =
        (diagnostics.filter fun diagnostic => diagnostic.line = number).length := by
    intro diagnostics number
    rw [List.count_eq_length_filter, List.filter_map, List.length_map]
    rfl
  have lines : (first.map Diagnostic.line).Perm (second.map Diagnostic.line) := by
    rw [List.perm_iff_count]
    intro number
    rw [countLine, countLine, sameLines]
  simpa using lines.length_eq

end LintRepair.Diagnostic
