/-
This file states that a pattern matches nowhere in a text, and which places decide this for a text
that a replacement left: those that begin at a kept character or inside what was put in.
-/

import LintRepair.Proofs.Text.Scanned

namespace LintRepair.Text

variable {Value Wanted : Type}

/-- A pattern matches at no place of a text. -/
def Absent (pattern : Pattern Value) (text : List Char) : Prop :=
  ∀ front behind, text = front ++ behind → pattern front.getLast? behind = none

/-- The match of a pattern does not depend on the character before its place. -/
def ContextFree (pattern : Pattern Value) : Prop :=
  ∀ before text, pattern before text = pattern none text

theorem Consumes.atEnd {pattern : Pattern Value} (consumes : Consumes pattern)
    (before : Option Char) : pattern before [] = none := by
  cases matched : pattern before [] with
  | none => rfl
  | some result =>
    obtain ⟨part, notEmpty, whole⟩ := consumes before [] result.1 result.2 matched
    exact absurd (List.append_eq_nil_iff.mp whole.symm).1 notEmpty

section

variable {pattern : Pattern Value} {front text : List Char} {cutPieces : List (Piece Value)}

theorem Scanned.foundNothing (scanned : Scanned pattern front text cutPieces)
    (absent : ∀ further behind, text = further ++ behind →
      pattern (front ++ further).getLast? behind = none) :
    cutPieces.filterMap Piece.value? = [] := by
  induction scanned with
  | done front => rfl
  | @kept front text character rest nothing scanned inductionHypothesis =>
    apply inductionHypothesis
    intro further behind whole
    have later := absent (character :: further) behind (by rw [whole, List.cons_append])
    simpa using later
  | @found front part behind value rest notEmpty matched scanned inductionHypothesis =>
    have here := absent [] (part ++ behind) rfl
    rw [List.append_nil, matched] at here
    cases here

theorem Scanned.absentBehind (scanned : Scanned pattern front text cutPieces)
    (consumes : Consumes pattern) (nothing : cutPieces.filterMap Piece.value? = [])
    {further behind : List Char} (whole : text = further ++ behind) :
    pattern (front ++ further).getLast? behind = none := by
  induction scanned generalizing further with
  | done front =>
    obtain ⟨-, rfl⟩ := List.append_eq_nil_iff.mp whole.symm
    exact consumes.atEnd _
  | @kept front text character rest here scanned inductionHypothesis =>
    cases further with
    | nil =>
      rw [List.append_nil, ← whole.trans (List.nil_append behind)]
      exact here
    | cons first further =>
      obtain ⟨rfl, rest⟩ := List.cons_eq_cons.mp whole
      have later := inductionHypothesis (by simpa [Piece.value?] using nothing) rest
      simpa using later
  | found => simp [Piece.value?] at nothing

end

/-- A scan finds nothing exactly if there is no match at any place. -/
theorem absent_iff {pattern : Pattern Value} (consumes : Consumes pattern) (text : List Char) :
    Absent pattern text ↔ occurrences pattern text = [] :=
  ⟨fun absent => (scannedPieces consumes text).foundNothing absent,
    fun nothing _ _ whole => (scannedPieces consumes text).absentBehind consumes nothing whole⟩

theorem ContextFree.absent_iff {pattern : Pattern Value} (contextFree : ContextFree pattern)
    (text : List Char) :
    Absent pattern text ↔ ∀ behind, behind <:+ text → pattern none behind = none := by
  constructor
  · rintro absent behind ⟨front, whole⟩
    rw [← contextFree front.getLast?]
    exact absent front behind whole.symm
  · intro absent front behind whole
    rw [contextFree]
    exact absent behind ⟨front, whole.symm⟩

/-- A suffix of two joined texts begins in the first of them or is a suffix of the second. -/
theorem suffixOfAppend {behind first second : List Char} (suffix : behind <:+ first ++ second) :
    (∃ middle, middle ≠ [] ∧ middle <:+ first ∧ behind = middle ++ second) ∨
      behind <:+ second := by
  obtain ⟨front, whole⟩ := suffix
  rcases List.append_eq_append_iff.mp whole with ⟨middle, rfl, rfl⟩ | ⟨rest, -, rfl⟩
  · by_cases empty : middle = []
    · exact .inr (by simp [empty])
    · exact .inl ⟨middle, empty, List.suffix_append _ _, rfl⟩
  · exact .inr (List.suffix_append _ _)

/-- The text behind a replacement is the text itself, or both agree up to the first match. -/
theorem Scanned.firstFound {pattern : Pattern Value} {front text : List Char}
    {cutPieces : List (Piece Value)} (scanned : Scanned pattern front text cutPieces)
    (replacement : Value → List Char) :
    cutPieces.flatMap (Piece.rendered replacement) = text ∨
      ∃ kept before part behind value rest, pattern before (part ++ behind) = some (value, behind) ∧
        text = kept ++ (part ++ behind) ∧
        cutPieces.flatMap (Piece.rendered replacement) = kept ++ (replacement value ++ rest) := by
  induction scanned with
  | done front => exact .inl rfl
  | @kept front text character rest nothing scanned inductionHypothesis =>
    rw [List.flatMap_cons, Piece.rendered, List.singleton_append]
    rcases inductionHypothesis with same |
      ⟨kept, before, part, behind, value, others, matched, rfl, rendered⟩
    · exact .inl (by rw [same])
    · exact .inr ⟨character :: kept, before, part, behind, value, others, matched, rfl,
        by rw [rendered, List.cons_append]⟩
  | @found front part behind value rest notEmpty matched scanned inductionHypothesis =>
    exact .inr ⟨[], _, part, behind, value, _, matched, rfl, rfl⟩

section

variable {pattern : Pattern Value} {Form : List Char → Value → Prop}
  {replacement : Value → List Char} {Allowed : Value → Prop} {wanted : Pattern Wanted}
  {whole : List Char}

/-- A match of a wanted pattern in a text that a replacement left begins at a kept character or
inside what was put in. The first kind stands in the old text if it can be moved back across one
match; the second kind has to be excluded. -/
theorem Scanned.absentRendered (consumes : Consumes wanted) (takes : Takes pattern Form)
    (unmatched : ∀ before text, text <:+ whole → pattern before text = none →
      wanted none text = none)
    (across : ∀ part value, Form part value → ∀ kept behind rest,
      wanted none (kept ++ (part ++ behind)) = none →
        wanted none (kept ++ (replacement value ++ rest)) = none)
    (within : ∀ part value, Form part value → Allowed value → ∀ behind, part ++ behind <:+ whole →
      ∀ middle, middle ≠ [] → middle <:+ replacement value →
        ∀ rest, wanted none (middle ++ rest) = none)
    {front text : List Char} {cutPieces : List (Piece Value)}
    (scanned : Scanned pattern front text cutPieces) (inside : text <:+ whole)
    (allowed : ∀ value ∈ cutPieces.filterMap Piece.value?, Allowed value)
    {behind : List Char} (suffix : behind <:+ cutPieces.flatMap (Piece.rendered replacement)) :
    wanted none behind = none := by
  induction scanned generalizing behind with
  | done front =>
    rw [List.flatMap_nil, List.suffix_nil] at suffix
    rw [suffix]
    exact consumes.atEnd none
  | @kept front text character rest nothing scanned inductionHypothesis =>
    rw [List.flatMap_cons, Piece.rendered, List.singleton_append] at suffix
    rcases List.suffix_cons_iff.mp suffix with rfl | later
    · have before := unmatched front.getLast? (character :: text) inside nothing
      rcases scanned.firstFound replacement with same |
        ⟨kept, place, part, behind, value, others, matched, rfl, rendered⟩
      · rwa [same]
      · rw [rendered]
        exact across part value (takes.form matched) (character :: kept) behind others before
    · exact inductionHypothesis ((List.suffix_cons _ _).trans inside)
        (by simpa [Piece.value?] using allowed) later
  | @found front part text value rest notEmpty matched scanned inductionHypothesis =>
    obtain ⟨first, others⟩ : Allowed value ∧
        ∀ value ∈ rest.filterMap Piece.value?, Allowed value := by
      simpa [Piece.value?] using allowed
    rcases suffixOfAppend suffix with ⟨middle, filled, part, rfl⟩ | later
    · exact within _ value (takes.form matched) first text inside middle filled part _
    · exact inductionHypothesis ((List.suffix_append _ _).trans inside) others later

theorem absentReplaced (consumes : Consumes wanted) (contextFree : ContextFree wanted)
    (consumed : Consumes pattern) (takes : Takes pattern Form)
    (unmatched : ∀ before text, text <:+ whole → pattern before text = none →
      wanted none text = none)
    (across : ∀ part value, Form part value → ∀ kept behind rest,
      wanted none (kept ++ (part ++ behind)) = none →
        wanted none (kept ++ (replacement value ++ rest)) = none)
    (within : ∀ part value, Form part value → Allowed value → ∀ behind, part ++ behind <:+ whole →
      ∀ middle, middle ≠ [] → middle <:+ replacement value →
        ∀ rest, wanted none (middle ++ rest) = none)
    (allowed : ∀ value ∈ occurrences pattern whole, Allowed value) :
    Absent wanted (replaceAll pattern replacement whole) :=
  (contextFree.absent_iff _).mpr fun _ suffix =>
    (scannedPieces consumed whole).absentRendered consumes takes unmatched across within
      (List.suffix_refl whole) allowed suffix

end

end LintRepair.Text
