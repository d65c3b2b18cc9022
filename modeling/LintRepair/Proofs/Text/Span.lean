/-
This file places the matches of a pattern in a text. It shows that a scan finds every match when no
two of them overlap, and that it finds as many matches as can stand side by side when no match ends
before an earlier one.
-/

import LintRepair.Proofs.Text.Scanned

namespace LintRepair.Text

variable {Value : Type}

/-- The place of a part of a text, as the number of characters before its start and before its
end. -/
structure Span where
  start : Nat
  stop : Nat
deriving Repr, DecidableEq

/-- A pattern matches at a place of a text, whether or not a scan takes this match. -/
def MatchesAt (pattern : Pattern Value) (text : List Char) (span : Span) : Prop :=
  ∃ front part behind value, text = front ++ part ++ behind ∧ part ≠ [] ∧
    front.length = span.start ∧ front.length + part.length = span.stop ∧
    pattern front.getLast? (part ++ behind) = some (value, behind)

/-- No two matches of the pattern overlap. -/
def Apart (pattern : Pattern Value) (text : List Char) : Prop :=
  ∀ first second, MatchesAt pattern text first → MatchesAt pattern text second →
    first.start < second.start → first.stop ≤ second.start

/-- No match ends before one that starts earlier. -/
def Staggered (pattern : Pattern Value) (text : List Char) : Prop :=
  ∀ first second, MatchesAt pattern text first → MatchesAt pattern text second →
    first.start < second.start → first.stop ≤ second.stop

/-- The places of the found parts among pieces that begin at a place. -/
def spansFrom : Nat → List (Piece Value) → List Span
  | _, [] => []
  | start, .kept _ :: rest => spansFrom (start + 1) rest
  | start, .found part _ :: rest =>
    ⟨start, start + part.length⟩ :: spansFrom (start + part.length) rest

/-- The places of the matches that a scan takes, from left to right. -/
def spans (pattern : Pattern Value) (text : List Char) : List Span :=
  spansFrom 0 (pieces pattern text)

theorem spansFromLength (start : Nat) (cutPieces : List (Piece Value)) :
    (spansFrom start cutPieces).length = (cutPieces.filterMap Piece.value?).length := by
  induction cutPieces generalizing start with
  | nil => rfl
  | cons piece cutPieces inductionHypothesis =>
    cases piece <;> simp [spansFrom, Piece.value?, List.filterMap_cons, inductionHypothesis]

theorem spansLength (pattern : Pattern Value) (text : List Char) :
    (spans pattern text).length = (occurrences pattern text).length :=
  spansFromLength 0 _

section

variable {pattern : Pattern Value} {front text : List Char} {span : Span}

theorem MatchesAt.bounds (isMatch : MatchesAt pattern text span) :
    span.start < span.stop ∧ span.stop ≤ text.length := by
  obtain ⟨front, part, behind, value, rfl, notEmpty, start, stop, -⟩ := isMatch
  have positive := List.length_pos_iff.mpr notEmpty
  simp only [List.length_append]
  omega

/-- A match at the end of a front is a match of the text behind the front. -/
theorem MatchesAt.atFront (isMatch : MatchesAt pattern (front ++ text) span)
    (start : span.start = front.length) :
    ∃ part behind value, text = part ++ behind ∧ span.stop = front.length + part.length ∧
      pattern front.getLast? text = some (value, behind) := by
  obtain ⟨other, part, behind, value, whole, -, otherStart, stop, matched⟩ := isMatch
  rw [List.append_assoc] at whole
  obtain ⟨rfl, rfl⟩ := List.append_inj whole (by omega)
  exact ⟨part, behind, value, rfl, stop.symm, matched⟩

/-- At one place a pattern takes one part. -/
theorem MatchesAt.unique {first second : Span} (isFirst : MatchesAt pattern text first)
    (isSecond : MatchesAt pattern text second) (start : first.start = second.start) :
    first = second := by
  obtain ⟨front, part, behind, value, rfl, -, firstStart, firstStop, matched⟩ := isFirst
  rw [List.append_assoc] at isSecond
  obtain ⟨other, otherBehind, otherValue, whole, secondStop, otherMatched⟩ :=
    isSecond.atFront (by omega)
  rw [matched, Option.some.injEq, Prod.mk.injEq] at otherMatched
  obtain ⟨-, rfl⟩ := otherMatched
  obtain rfl := List.append_cancel_right whole
  obtain ⟨firstStart', firstStop'⟩ := first
  obtain ⟨secondStart', secondStop'⟩ := second
  simp only at *
  rw [Span.mk.injEq]
  omega

variable {cutPieces : List (Piece Value)}

theorem Scanned.spanMatches (scanned : Scanned pattern front text cutPieces)
    (isSpan : span ∈ spansFrom front.length cutPieces) :
    MatchesAt pattern (front ++ text) span ∧ front.length ≤ span.start := by
  induction scanned with
  | done front => cases isSpan
  | @kept front text character rest nothing scanned inductionHypothesis =>
    have later := inductionHypothesis (by simpa [spansFrom] using isSpan)
    rw [List.append_assoc, List.length_append, List.length_singleton] at later
    exact ⟨later.1, by omega⟩
  | @found front part behind value rest notEmpty matched scanned inductionHypothesis =>
    rw [spansFrom] at isSpan
    rcases List.mem_cons.mp isSpan with rfl | isLater
    · exact ⟨⟨front, part, behind, value, by simp, notEmpty, rfl, rfl, matched⟩, Nat.le_refl _⟩
    · have later := inductionHypothesis (by simpa using isLater)
      rw [List.append_assoc, List.length_append] at later
      exact ⟨later.1, by omega⟩

theorem Scanned.spansOrdered (scanned : Scanned pattern front text cutPieces) :
    (spansFrom front.length cutPieces).Pairwise
      fun first second => first.stop ≤ second.start := by
  induction scanned with
  | done front => exact List.Pairwise.nil
  | kept nothing scanned inductionHypothesis => simpa [spansFrom] using inductionHypothesis
  | @found front part behind value rest notEmpty matched scanned inductionHypothesis =>
    rw [spansFrom]
    rw [List.length_append] at inductionHypothesis
    refine List.pairwise_cons.mpr ⟨fun later isLater => ?_, inductionHypothesis⟩
    have bound := (scanned.spanMatches (by simpa using isLater)).2
    simpa using bound

/-- A scan finds every match that no earlier match overlaps. -/
theorem Scanned.spansComplete (scanned : Scanned pattern front text cutPieces)
    (apart : Apart pattern (front ++ text)) (isMatch : MatchesAt pattern (front ++ text) span)
    (ahead : front.length ≤ span.start) : span ∈ spansFrom front.length cutPieces := by
  induction scanned with
  | done front =>
    have bounds := isMatch.bounds
    simp only [List.append_nil] at bounds
    omega
  | @kept front text character rest nothing scanned inductionHypothesis =>
    have further : front.length ≠ span.start := by
      intro start
      obtain ⟨part, behind, value, -, -, matched⟩ := isMatch.atFront start.symm
      rw [nothing] at matched
      cases matched
    rw [spansFrom]
    have later := inductionHypothesis (by simpa using apart) (by simpa using isMatch)
      (by simp only [List.length_append, List.length_singleton]; omega)
    simpa using later
  | @found front part behind value rest notEmpty matched scanned inductionHypothesis =>
    have taken : MatchesAt pattern (front ++ (part ++ behind))
        ⟨front.length, front.length + part.length⟩ :=
      ⟨front, part, behind, value, by simp, notEmpty, rfl, rfl, matched⟩
    rw [spansFrom]
    by_cases start : span.start = front.length
    · rw [isMatch.unique taken start]
      exact List.mem_cons_self
    · have beyond := apart _ _ taken isMatch (by simp only; omega)
      have later := inductionHypothesis (by simpa using apart) (by simpa using isMatch)
        (by simpa using beyond)
      exact List.mem_cons_of_mem _ (by simpa using later)

/-- No matches that stand side by side are more than those that a scan finds. -/
theorem Scanned.mostSpans (scanned : Scanned pattern front text cutPieces)
    (staggered : Staggered pattern (front ++ text)) {chain : List Span}
    (ordered : chain.Pairwise fun first second => first.stop ≤ second.start)
    (each : ∀ span ∈ chain, MatchesAt pattern (front ++ text) span ∧ front.length ≤ span.start) :
    chain.length ≤ (spansFrom front.length cutPieces).length := by
  induction scanned generalizing chain with
  | done front =>
    cases chain with
    | nil => exact Nat.zero_le _
    | cons first chain =>
      obtain ⟨isMatch, ahead⟩ := each first List.mem_cons_self
      have bounds := isMatch.bounds
      simp only [List.append_nil] at bounds
      omega
  | @kept front text character rest nothing scanned inductionHypothesis =>
    have further : ∀ span ∈ chain, MatchesAt pattern (front ++ [character] ++ text) span ∧
        (front ++ [character]).length ≤ span.start := by
      intro span inChain
      obtain ⟨isMatch, ahead⟩ := each span inChain
      have other : front.length ≠ span.start := by
        intro start
        obtain ⟨part, behind, value, -, -, matched⟩ := isMatch.atFront start.symm
        rw [nothing] at matched
        cases matched
      refine ⟨by simpa using isMatch, ?_⟩
      simp only [List.length_append, List.length_singleton]
      omega
    have bound := inductionHypothesis (by simpa using staggered) ordered further
    simpa [spansFrom] using bound
  | @found front part behind value rest notEmpty matched scanned inductionHypothesis =>
    cases chain with
    | nil => exact Nat.zero_le _
    | cons first chain =>
      have taken : MatchesAt pattern (front ++ (part ++ behind))
          ⟨front.length, front.length + part.length⟩ :=
        ⟨front, part, behind, value, by simp, notEmpty, rfl, rfl, matched⟩
      obtain ⟨isFirst, ahead⟩ := each first List.mem_cons_self
      -- The match that the scan takes ends no later than the first one of the chain.
      have earliest : front.length + part.length ≤ first.stop := by
        by_cases start : first.start = front.length
        · have same := isFirst.unique taken start
          exact Nat.le_of_eq (congrArg Span.stop same).symm
        · exact staggered _ _ taken isFirst (by simp only; omega)
      obtain ⟨behindFirst, chainOrdered⟩ := List.pairwise_cons.mp ordered
      have bound := inductionHypothesis (by simpa using staggered) chainOrdered
        (fun span inChain => by
          refine ⟨by simpa using (each span (List.mem_cons_of_mem _ inChain)).1, ?_⟩
          have beyond := behindFirst span inChain
          rw [List.length_append]
          omega)
      rw [spansFrom, List.length_cons, List.length_cons]
      simpa using bound

end

section

variable {pattern : Pattern Value} {text : List Char}

/-- The places of all matches, whether or not a scan takes them. -/
def everySpan (pattern : Pattern Value) (text : List Char) : List Span :=
  (List.range text.length).filterMap fun start =>
    (pattern (text.take start).getLast? (text.drop start)).map fun found =>
      ⟨start, text.length - found.2.length⟩

theorem memEverySpan (consumes : Consumes pattern) (span : Span) :
    span ∈ everySpan pattern text ↔ MatchesAt pattern text span := by
  simp only [everySpan, List.mem_filterMap, List.mem_range, Option.map_eq_some_iff]
  constructor
  · rintro ⟨start, inside, ⟨value, behind⟩, matched, rfl⟩
    obtain ⟨part, notEmpty, whole⟩ := consumes _ _ value behind matched
    have split : text = text.take start ++ part ++ behind := by
      rw [List.append_assoc, ← whole, List.take_append_drop]
    have front : (text.take start).length = start := by
      rw [List.length_take]
      omega
    have size := congrArg List.length split
    rw [List.length_append, List.length_append, front] at size
    rw [whole] at matched
    exact ⟨text.take start, part, behind, value, split, notEmpty, front, by simp only; omega,
      matched⟩
  · rintro ⟨front, part, behind, value, rfl, notEmpty, start, stop, matched⟩
    have positive := List.length_pos_iff.mpr notEmpty
    refine ⟨front.length, by simp only [List.length_append]; omega, (value, behind), ?_, ?_⟩
    · rw [List.append_assoc, List.take_left, List.drop_left]
      exact matched
    · obtain ⟨spanStart, spanStop⟩ := span
      simp only [List.length_append] at *
      rw [Span.mk.injEq]
      omega

/-- Overlaps are looked for among finitely many matches. -/
theorem apart_iff (consumes : Consumes pattern) :
    Apart pattern text ↔ ∀ first ∈ everySpan pattern text, ∀ second ∈ everySpan pattern text,
      first.start < second.start → first.stop ≤ second.start := by
  simp only [memEverySpan consumes]
  constructor
  · intro apart first isFirst second isSecond
    exact apart first second isFirst isSecond
  · intro apart first second isFirst isSecond
    exact apart first isFirst second isSecond

theorem spansMatch (consumes : Consumes pattern) {span : Span}
    (isSpan : span ∈ spans pattern text) : MatchesAt pattern text span :=
  ((scannedPieces consumes text).spanMatches isSpan).1

theorem spansOrdered (consumes : Consumes pattern) (text : List Char) :
    (spans pattern text).Pairwise fun first second => first.stop ≤ second.start :=
  (scannedPieces consumes text).spansOrdered

/-- When no two matches overlap, a scan finds exactly the matches. -/
theorem memSpans (consumes : Consumes pattern) (apart : Apart pattern text) (span : Span) :
    span ∈ spans pattern text ↔ MatchesAt pattern text span :=
  ⟨spansMatch consumes, fun isMatch =>
    (scannedPieces consumes text).spansComplete apart isMatch (Nat.zero_le _)⟩

theorem mostSpans (consumes : Consumes pattern) (staggered : Staggered pattern text)
    {chain : List Span} (ordered : chain.Pairwise fun first second => first.stop ≤ second.start)
    (each : ∀ span ∈ chain, MatchesAt pattern text span) :
    chain.length ≤ (spans pattern text).length :=
  (scannedPieces consumes text).mostSpans staggered ordered fun span inChain =>
    ⟨each span inChain, Nat.zero_le _⟩

/-- The matches that a scan takes end at different places. -/
theorem spanStopsNodup (consumes : Consumes pattern) (text : List Char) :
    ((spans pattern text).map Span.stop).Nodup := by
  apply List.pairwise_map.mpr
  apply (spansOrdered consumes text).imp_of_mem
  intro first second _ isSecond before
  have bounds := (spansMatch consumes isSecond).bounds
  omega

end

end LintRepair.Text
