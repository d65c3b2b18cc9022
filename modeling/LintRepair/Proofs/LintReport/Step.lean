/-
This file says what one character can do to the reader.
-/

import LintRepair.Proofs.LintReport.Value

namespace LintRepair.LintReport

namespace Phase

/-- The changes of the phase by one character. Only a closing bracket completes a report. -/
inductive Step (character : Char) : Phase → Phase → Prop where
  | blank {phase : Phase} : phase.IsBetween → isSpace character → Step character phase phase
  | punctuation {phase after : Phase} : phase.IsBetween → phase ≠ finished → after.IsBetween →
      character ∈ ['[', ']', '{', '}', ':', ','] → (after = finished → character = ']') →
      Step character phase after
  | beginString {phase : Phase} (asKey : Bool) : phase.BeforeValue ∨ phase.BeforeKey →
      character = '"' → Step character phase (string asKey QuotedText.start)
  | beginNumber {phase : Phase} {start : Number} : phase.BeforeValue →
      Number.start? character = some start → Step character phase (number start)
  | beginLiteral {phase : Phase} {rest : List Char} (value : Scalar) : phase.BeforeValue →
      (∀ letter ∈ character :: rest, letter.isAlpha) → Step character phase (literal rest value)
  | string {asKey kept : Bool} {quoted next : QuotedText} :
      quoted.step kept character = .ok (.more next) →
      Step character (string asKey quoted) (string asKey next)
  | stringEnd {asKey kept : Bool} {quoted : QuotedText} {after : Phase} :
      quoted.step kept character = .ok .complete → after = separator ∨ after = colon →
      Step character (string asKey quoted) after
  | number {before after : Number} : before.step character = .ok (.more after) →
      Step character (number before) (number after)
  | numberEnd {ended : Number} {after : Phase} : ended.step character = .ok .complete →
      Step character separator after → Step character (number ended) after
  | literal {rest : List Char} (value : Scalar) : rest ≠ [] →
      Step character (literal (character :: rest) value) (literal rest value)
  | literalEnd (value : Scalar) : Step character (literal [character] value) separator

section Steps

variable {character : Char} {before after : Phase}

/-- A report becomes complete with a closing bracket and stays so through white space. -/
theorem Step.finishes (step : Step character before after) (ends : after = finished) :
    before = finished ∧ isSpace character ∨ character = ']' := by
  induction step with
  | blank _ space => exact .inl ⟨ends, space⟩
  | punctuation _ _ _ _ closing => exact .inr (closing ends)
  | stringEnd _ phase => rcases phase with rfl | rfl <;> cases ends
  | numberEnd _ _ inductionHypothesis =>
    rcases inductionHypothesis ends with ⟨no, -⟩ | closing
    · cases no
    · exact .inr closing
  | beginString | beginNumber | beginLiteral | string | number | literal | literalEnd => cases ends

/-- A number begins where a value may stand, and goes on within itself. -/
theorem Step.intoNumber (step : Step character before after) {begun : Number}
    (inNumber : after = Phase.number begun) :
    before.BeforeValue ∧ Number.start? character = some begun ∨
      ∃ earlier, before = Phase.number earlier ∧
        Number.step earlier character = .ok (.more begun) := by
  induction step with
  | blank between _ =>
    rw [inNumber] at between
    cases between
  | punctuation _ _ between _ _ =>
    rw [inNumber] at between
    cases between
  | beginNumber before starts =>
    cases inNumber
    exact .inl ⟨before, starts⟩
  | number stepped =>
    cases inNumber
    exact .inr ⟨_, rfl, stepped⟩
  | stringEnd _ phase => rcases phase with rfl | rfl <;> cases inNumber
  | numberEnd _ _ inductionHypothesis =>
    rcases inductionHypothesis inNumber with ⟨no | no, -⟩ | ⟨_, no, -⟩ <;> cases no
  | beginString | beginLiteral | string | literal | literalEnd => cases inNumber

end Steps

end Phase

section Results

variable {Value Result : Type} {result : Except Failure Value} {final : Result}

theorem mapOk {change : Value → Result} :
    result.map change = .ok final ↔ ∃ value, result = .ok value ∧ change value = final := by
  cases result <;> simp [Except.map]

theorem bindOk {next : Value → Except Failure Result} :
    (result >>= next) = .ok final ↔ ∃ value, result = .ok value ∧ next value = .ok final := by
  cases result with
  | error failure => exact ⟨fun impossible => (by cases impossible), fun ⟨_, no, _⟩ => (by cases no)⟩
  | ok value => exact ⟨fun ends => ⟨value, rfl, ends⟩, fun ⟨_, same, ends⟩ => (by cases same; exact ends)⟩

end Results

namespace Place

/-- Something is still open, or nothing has begun. -/
def Incomplete (place : Place) : Prop :=
  ∀ reports, place ≠ complete reports

variable {place filled : Place}

theorem Incomplete.withValue {value : Scalar} (incomplete : place.Incomplete)
    (accepts : place.withValue value = .ok filled) : filled.Incomplete := by
  unfold Place.withValue at accepts
  split at accepts
  · obtain ⟨draft, -, rfl⟩ := mapOk.mp accepts
    exact fun _ => Place.noConfusion
  · obtain ⟨current, -, rfl⟩ := mapOk.mp accepts
    exact fun _ => Place.noConfusion
  · cases accepts
    exact incomplete
  · cases accepts

theorem incompleteOfKey {key : String} (accepts : place.withKey key = .ok filled) :
    filled.Incomplete := by
  unfold withKey at accepts
  split at accepts
  · obtain ⟨draft, -, rfl⟩ := mapOk.mp accepts
    exact fun _ => Place.noConfusion
  · obtain ⟨current, -, rfl⟩ := mapOk.mp accepts
    exact fun _ => Place.noConfusion
  all_goals cases accepts

theorem incompleteOfSquare (accepts : place.openSquare = .ok filled) : filled.Incomplete := by
  unfold openSquare at accepts
  split at accepts <;> cases accepts <;> exact fun _ => Place.noConfusion

theorem incompleteOfCurly (accepts : place.openCurly = .ok filled) : filled.Incomplete := by
  unfold openCurly at accepts
  split at accepts <;> cases accepts <;> exact fun _ => Place.noConfusion

/-- Only the list of the reports is closed to the whole. -/
theorem closes (accepts : place.close = .ok filled) :
    filled.Incomplete ∨ place.bracket = .square := by
  unfold close at accepts
  split at accepts
  · exact .inr rfl
  · obtain ⟨report, -, rfl⟩ := mapOk.mp accepts
    exact .inl fun _ => Place.noConfusion
  · cases accepts
    exact .inl fun _ => Place.noConfusion
  · obtain ⟨message, -, rfl⟩ := mapOk.mp accepts
    exact .inl fun _ => Place.noConfusion
  all_goals cases accepts

end Place

namespace State

variable {state after : State} {character : Char}

theorem afterValueIncomplete {place : Place} (incomplete : place.Incomplete) :
    (state.afterValue place).phase = .separator ∧ (state.afterValue place).place.Incomplete := by
  refine ⟨?_, incomplete⟩
  cases place with
  | complete reports => cases incomplete reports rfl
  | outside | reports | report | messages | message => rfl

/-- A report is complete in the last phase only. -/
def Settled (state : State) : Prop :=
  state.place.Incomplete ∨ state.phase = .finished

theorem afterValueSettled (place : Place) : (state.afterValue place).Settled := by
  cases place with
  | complete reports => exact .inr rfl
  | outside | reports | report | messages | message => exact .inl fun _ => Place.noConfusion

section Values

variable (incomplete : state.place.Incomplete)

include incomplete

theorem acceptScalarStep {value : Scalar} (accepts : state.acceptScalar value = .ok after) :
    after.phase = .separator ∧ after.place.Incomplete := by
  unfold acceptScalar at accepts
  split at accepts
  · obtain ⟨place, filled, rfl⟩ := mapOk.mp accepts
    exact afterValueIncomplete (incomplete.withValue filled)
  · cases accepts
    exact afterValueIncomplete incomplete

theorem acceptNumberStep {number : Number} (accepts : state.acceptNumber number = .ok after) :
    after.phase = .separator ∧ after.place.Incomplete := by
  unfold acceptNumber at accepts
  split at accepts
  · exact acceptScalarStep incomplete accepts
  · split at accepts
    · cases accepts
    · exact acceptScalarStep incomplete accepts

theorem acceptKeyStep {key : String} (accepts : state.acceptKey key = .ok after) :
    after.phase = .colon ∧ after.place.Incomplete := by
  unfold acceptKey at accepts
  split at accepts
  · obtain ⟨place, named, rfl⟩ := mapOk.mp accepts
    exact ⟨rfl, Place.incompleteOfKey named⟩
  · cases accepts
    exact ⟨rfl, incomplete⟩

theorem beginValueStep (before : state.phase.BeforeValue)
    (begins : state.beginValue character = .ok after) :
    Phase.Step character state.phase after.phase ∧ after.place.Incomplete := by
  have between := before.isBetween
  have unfinished : state.phase ≠ .finished := by
    rcases before with before | before <;> rw [before] <;> nofun
  unfold beginValue at begins
  split at begins
  · split at begins
    · obtain ⟨place, opened, rfl⟩ := mapOk.mp begins
      exact ⟨.punctuation between unfinished trivial (by decide) (by simp),
        Place.incompleteOfSquare opened⟩
    · cases begins
      exact ⟨.punctuation between unfinished trivial (by decide) (by simp), incomplete⟩
  · split at begins
    · obtain ⟨place, opened, rfl⟩ := mapOk.mp begins
      exact ⟨.punctuation between unfinished trivial (by decide) (by simp),
        Place.incompleteOfCurly opened⟩
    · cases begins
      exact ⟨.punctuation between unfinished trivial (by decide) (by simp), incomplete⟩
  · cases begins
    exact ⟨.beginString false (.inl before) rfl, incomplete⟩
  · cases begins
    exact ⟨.beginLiteral .boolean before (List.all_eq_true.mp (by decide)), incomplete⟩
  · cases begins
    exact ⟨.beginLiteral .boolean before (List.all_eq_true.mp (by decide)), incomplete⟩
  · cases begins
    exact ⟨.beginLiteral .null before (List.all_eq_true.mp (by decide)), incomplete⟩
  · split at begins
    · next number starts =>
      cases begins
      exact ⟨.beginNumber before starts, incomplete⟩
    · cases begins

theorem closeBracketStep {bracket : Bracket} (closes : state.closeBracket bracket = .ok after) :
    after.Settled ∧ after.phase.IsBetween ∧ (after.phase = .finished → bracket = .square) := by
  unfold closeBracket at closes
  split at closes
  · split at closes
    · cases closes
      refine ⟨afterValueSettled state.place, ?_⟩
      rw [(afterValueIncomplete incomplete).1]
      exact ⟨trivial, nofun⟩
    · cases closes
  · split at closes
    · next same =>
      obtain ⟨place, closed, rfl⟩ := mapOk.mp closes
      refine ⟨afterValueSettled place, ?_⟩
      rcases Place.closes closed with incompleteNow | square
      · rw [(afterValueIncomplete incompleteNow).1]
        exact ⟨trivial, nofun⟩
      · refine ⟨?_, fun _ => same.symm.trans square⟩
        cases place <;> trivial
    · cases closes

theorem continueStep (continues : state.continueBehindComma = .ok after) :
    (after.phase = .value ∨ after.phase = .key) ∧ after.place.Incomplete := by
  unfold continueBehindComma at continues
  split at continues
  · cases continues
    exact ⟨.inl rfl, incomplete⟩
  · cases continues
    exact ⟨.inr rfl, incomplete⟩
  · split at continues
    · split at continues
      · cases continues
        exact ⟨.inl rfl, incomplete⟩
      · cases continues
        exact ⟨.inr rfl, incomplete⟩
    · cases continues

/-- A character between two tokens, as long as the report is not complete. -/
theorem feedBetweenStep (between : state.phase.IsBetween) (unfinished : state.phase ≠ .finished)
    (fed : state.feedBetween character = .ok after) :
    Phase.Step character state.phase after.phase ∧ after.Settled := by
  have begun (before : state.phase.BeforeValue) (begins : state.beginValue character = .ok after) :
      Phase.Step character state.phase after.phase ∧ after.Settled :=
    (beginValueStep incomplete before begins).imp_right .inl
  have closed {bracket : Bracket} (closes : state.closeBracket bracket = .ok after)
      (isBracket : character = ']' ∨ character = '}' ∧ bracket = .curly) :
      Phase.Step character state.phase after.phase ∧ after.Settled := by
    obtain ⟨settled, betweenAfter, square⟩ := closeBracketStep incomplete closes
    refine ⟨.punctuation between unfinished betweenAfter ?_ ?_, settled⟩
    · rcases isBracket with rfl | ⟨rfl, -⟩ <;> decide
    · intro finished
      rcases isBracket with isSquare | ⟨-, rfl⟩
      · exact isSquare
      · cases square finished
  obtain ⟨place, ignored, phase⟩ := state
  unfold feedBetween at fed
  split at fed
  · next space =>
    cases fed
    exact ⟨.blank between space, .inl incomplete⟩
  · split at fed
    · next phase _ => exact begun (.inl phase) fed
    · exact closed fed (.inl rfl)
    · next phase _ _ => exact begun (.inr phase) fed
    · exact closed fed (.inr ⟨rfl, rfl⟩)
    · next phase _ =>
      cases fed
      exact ⟨.beginString true (.inr (.inr phase)) rfl, .inl incomplete⟩
    · next phase _ =>
      cases fed
      exact ⟨.beginString true (.inr (.inl phase)) rfl, .inl incomplete⟩
    · cases fed
      exact ⟨.punctuation between unfinished trivial (by decide) nofun, .inl incomplete⟩
    · obtain ⟨phase, still⟩ := continueStep incomplete fed
      refine ⟨.punctuation between unfinished ?_ (by decide) ?_, .inl still⟩
      · rcases phase with phase | phase <;> rw [phase] <;> trivial
      · rcases phase with phase | phase <;> rw [phase] <;> nofun
    · exact closed fed (.inl rfl)
    · exact closed fed (.inr ⟨rfl, rfl⟩)
    · cases fed

end Values

/-- Behind a complete report only white space may follow. -/
theorem feedFinished (finished : state.phase = .finished) (fed : state.feed character = .ok after) :
    isSpace character ∧ after = state := by
  obtain ⟨place, ignored, phase⟩ := state
  cases finished
  simp only [feed, feedBetween] at fed
  split at fed
  · next space => exact ⟨space, (Except.ok.inj fed).symm⟩
  · cases fed

/-- What one character does to the reader. -/
theorem feedStep (settled : state.Settled) (fed : state.feed character = .ok after) :
    Phase.Step character state.phase after.phase ∧ after.Settled := by
  by_cases finished : state.phase = .finished
  · obtain ⟨space, rfl⟩ := feedFinished finished fed
    refine ⟨.blank ?_ space, settled⟩
    rw [finished]
    trivial
  have incomplete : state.place.Incomplete := settled.resolve_right finished
  obtain ⟨place, ignored, phase⟩ := state
  cases phase with
  | string asKey quoted =>
    obtain ⟨progress, stepped, fed⟩ := bindOk.mp fed
    cases progress with
    | more next =>
      cases fed
      exact ⟨.string stepped, .inl incomplete⟩
    | complete =>
      cases asKey with
      | true =>
        obtain ⟨phase, still⟩ := acceptKeyStep incomplete fed
        exact ⟨.stringEnd stepped (.inr phase), .inl still⟩
      | false =>
        obtain ⟨phase, still⟩ := acceptScalarStep incomplete fed
        exact ⟨.stringEnd stepped (.inl phase), .inl still⟩
  | number number =>
    obtain ⟨progress, stepped, fed⟩ := bindOk.mp fed
    cases progress with
    | more next =>
      cases fed
      exact ⟨.number stepped, .inl incomplete⟩
    | complete =>
      obtain ⟨accepted, accepts, fed⟩ := bindOk.mp fed
      obtain ⟨phase, still⟩ := acceptNumberStep incomplete accepts
      have between : accepted.phase.IsBetween := by rw [phase]; trivial
      have unfinished : accepted.phase ≠ .finished := by rw [phase]; nofun
      obtain ⟨step, settledAfter⟩ := feedBetweenStep still between unfinished fed
      rw [phase] at step
      exact ⟨.numberEnd stepped step, settledAfter⟩
  | literal rest value =>
    cases rest with
    | nil => cases fed
    | cons expected rest =>
      simp only [feed] at fed
      split at fed
      · next same =>
        subst same
        split at fed
        · next last =>
          obtain ⟨phase, still⟩ := acceptScalarStep incomplete fed
          cases List.isEmpty_iff.mp last
          rw [phase]
          exact ⟨.literalEnd value, .inl still⟩
        · next more =>
          cases fed
          exact ⟨.literal value (by simpa using more), .inl incomplete⟩
      · cases fed
  | value | itemOrEnd | keyOrEnd | key | colon | separator | finished =>
    exact feedBetweenStep incomplete trivial finished fed

end State

end LintRepair.LintReport
