/-
This file shows what renaming a parameter does to its line: every match gains one underscore at its
front, so the line grows and keeps its end.
-/

import LintRepair.Fix.Parameter
import LintRepair.Proofs.Text.Pieces
import Mathlib.Data.Option.Basic

namespace LintRepair.Parameter

open Text

/-- A match is the name and what it holds behind the name, which is at least the delimiter. -/
def MatchForm (name part behind : List Char) : Prop :=
  part = name ++ behind ∧ behind ≠ []

theorem takesOccurrence (name : List Char) : Takes (occurrence name) (MatchForm name) := by
  intro before text behind rest matched
  simp only [occurrence, Option.bind_eq_bind, Option.bind_eq_some_iff,
    Option.guard_eq_some'] at matched
  obtain ⟨-, -, ahead, read, -, -, ends⟩ := matched
  rw [literal_eq_some_iff] at read
  split at ends
  · cases ends
  · next character others delimited =>
    split at ends
    · cases ends
      refine ⟨name ++ (ahead.takeWhile Unicode.isBlank ++ [character]), ⟨rfl, by simp⟩, ?_⟩
      have whole := List.takeWhile_append_dropWhile (p := Unicode.isBlank) (l := ahead)
      rw [delimited] at whole
      simpa [read] using whole.symm
    · cases ends

theorem renameReplaces {line name renamed : List Char}
    (renames : rename? line name = some renamed) :
    occurrences (occurrence name) line ≠ [] ∧
      renamed = replaceAll (occurrence name) (fun behind => '_' :: name ++ behind) line := by
  unfold rename? at renames
  split at renames
  · cases renames
  · next matched =>
    cases renames
    exact ⟨by simpa using matched, rfl⟩

/-- Every match makes the line longer by one, so a renamed line is never the old one. -/
theorem renameLength {line name renamed : List Char}
    (renames : rename? line name = some renamed) : line.length < renamed.length := by
  obtain ⟨matched, rfl⟩ := renameReplaces renames
  have grows : ∀ part behind, MatchForm name part behind →
      ('_' :: name ++ behind).countP (fun _ => true) + 0 = part.countP (fun _ => true) + 1 := by
    rintro part behind ⟨rfl, -⟩
    simp
  have counted : (replaceAll (occurrence name) (fun behind => '_' :: name ++ behind) line).countP
      (fun _ => true) + 0 * _ = line.countP (fun _ => true) + 1 * _ :=
    countReplaceAll (takesOccurrence name) grows line
  have positive := List.length_pos_iff.mpr matched
  simp only [List.countP_true] at counted
  omega

theorem renameGetLast {line name renamed : List Char}
    (renames : rename? line name = some renamed) : renamed.getLast? = line.getLast? := by
  obtain ⟨-, rfl⟩ := renameReplaces renames
  refine getLastReplaceAll (takesOccurrence name) ?_ line
  rintro part behind ⟨rfl, notEmpty⟩
  rw [List.getLast?_append, List.getLast?_append, List.getLast?_eq_some_getLast notEmpty]
  rfl

theorem memRename {line name renamed : List Char} (renames : rename? line name = some renamed)
    {character : Char} (inside : character ∈ renamed) : character ∈ line ∨ character = '_' := by
  obtain ⟨-, rfl⟩ := renameReplaces renames
  have brings : ∀ part behind, MatchForm name part behind →
      ∀ other ∈ '_' :: name ++ behind, other ∈ part ∨ other = '_' := by
    rintro part behind ⟨rfl, -⟩ other isOther
    rcases List.mem_cons.mp isOther with isUnderscore | isOld
    · exact .inr isUnderscore
    · exact .inl isOld
  exact memReplaceAll (takesOccurrence name) brings inside

theorem renameEmpty (name : List Char) : rename? [] name = none := by
  simp [rename?, occurrences, pieces, cut]

end LintRepair.Parameter
