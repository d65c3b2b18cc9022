/-
This file sorts diagnostics by line. Diagnostics of one line keep their order.
-/

import LintRepair.Diagnostic.Basic

namespace LintRepair.Diagnostic

/-- A diagnostic goes before the first one that it does not have to follow. -/
def insertBy (notAfter : Diagnostic → Diagnostic → Bool) (diagnostic : Diagnostic) :
    List Diagnostic → List Diagnostic
  | [] => [diagnostic]
  | next :: rest =>
    if notAfter diagnostic next then diagnostic :: next :: rest
    else next :: insertBy notAfter diagnostic rest

/-- Insertion from the last diagnostic to the first keeps the order of equals. -/
def sortBy (notAfter : Diagnostic → Diagnostic → Bool) (diagnostics : List Diagnostic) :
    List Diagnostic :=
  diagnostics.foldr (insertBy notAfter) []

/-- The highest line first. -/
def descending (diagnostics : List Diagnostic) : List Diagnostic :=
  sortBy (fun left right => right.line ≤ left.line) diagnostics

/-- The lowest line first. -/
def ascending (diagnostics : List Diagnostic) : List Diagnostic :=
  sortBy (fun left right => left.line ≤ right.line) diagnostics

theorem insertByPerm (notAfter : Diagnostic → Diagnostic → Bool) (diagnostic : Diagnostic)
    (diagnostics : List Diagnostic) :
    (insertBy notAfter diagnostic diagnostics).Perm (diagnostic :: diagnostics) := by
  induction diagnostics with
  | nil => exact List.Perm.refl _
  | cons next rest inductionHypothesis =>
    simp only [insertBy]
    split
    · exact List.Perm.refl _
    · exact (inductionHypothesis.cons next).trans (List.Perm.swap diagnostic next rest)

/-- Sorting neither drops nor repeats a diagnostic. -/
theorem sortByPerm (notAfter : Diagnostic → Diagnostic → Bool) (diagnostics : List Diagnostic) :
    (sortBy notAfter diagnostics).Perm diagnostics := by
  induction diagnostics with
  | nil => exact List.Perm.refl _
  | cons diagnostic diagnostics inductionHypothesis =>
    exact (insertByPerm notAfter diagnostic _).trans (inductionHypothesis.cons diagnostic)

end LintRepair.Diagnostic
