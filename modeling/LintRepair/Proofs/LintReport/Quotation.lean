/-
This file compares the reader with the quotation marks of a text: it is inside a string where they
say so.
-/

import LintRepair.Proofs.LintReport.Step
import LintRepair.Text.LossyDecoding

namespace LintRepair.LintReport

/-- Where a text ends, by its quotation marks and backslashes alone. -/
inductive Quotation where
  | outside
  | inside
  | escaped
deriving DecidableEq

def Quotation.step : Quotation → Char → Quotation
  | outside, character => if character = '"' then inside else outside
  | inside, character =>
    if character = '"' then outside else if character = '\\' then escaped else inside
  | escaped, _ => inside

def quotation (text : List Char) : Quotation :=
  text.foldl Quotation.step .outside

theorem quotationAppend (text : List Char) (character : Char) :
    quotation (text ++ [character]) = (quotation text).step character := by
  rw [quotation, List.foldl_append]
  rfl

namespace QuotedText

/-- A `\u` escape with a wrong digit may hold a quotation mark, but is never read to its end. -/
def Place.Matches : Place → Quotation → Prop
  | plain, quotation | nextEscape _, quotation => quotation = .inside
  | escape, quotation | nextCode _, quotation => quotation = .escaped
  | code _ _ valid _, quotation => valid → quotation = .inside

variable {kept : Bool} {quoted next : QuotedText} {character : Char}

theorem stepComplete (stepped : quoted.step kept character = .ok .complete) :
    quoted.place = .plain ∧ character = '"' := by
  unfold step at stepped
  split at stepped
  · next plain =>
    split at stepped
    · next quote => exact ⟨plain, quote⟩
    · split at stepped
      · cases stepped
      · split at stepped <;> cases stepped
  · split at stepped
    · cases stepped
    · split at stepped <;> cases stepped
  · simp only at stepped
    split at stepped
    · cases stepped
    · split at stepped
      · obtain ⟨_, -, no⟩ := mapOk.mp stepped
        cases no
      · cases stepped
  · split at stepped <;> cases stepped
  · split at stepped <;> cases stepped

theorem endCodeMatches {value : Nat} {leading : Option Nat}
    (ends : endCode kept quoted value leading = .ok next) : next.place.Matches .inside := by
  unfold endCode at ends
  split at ends
  · cases ends
    rfl
  · split at ends
    · split at ends
      · cases ends
      · split at ends <;> cases ends <;> rfl
    · split at ends <;> cases ends
      rfl

theorem hexadecimalInside (isDigit : (hexadecimal? character).isSome) :
    Quotation.inside.step character = .inside := by
  have notQuote : character ≠ '"' := by
    rintro rfl
    cases isDigit
  have notBackslash : character ≠ '\\' := by
    rintro rfl
    cases isDigit
  simp [Quotation.step, notQuote, notBackslash]

theorem stepMatches {quotation : Quotation} (stepped : quoted.step kept character = .ok (.more next))
    (places : quoted.place.Matches quotation) : next.place.Matches (quotation.step character) := by
  unfold step at stepped
  split at stepped
  · next plain =>
    rw [plain] at places
    cases places
    split at stepped
    · cases stepped
    · next notQuote =>
      split at stepped
      · next backslash =>
        cases stepped
        simp [Quotation.step, backslash, Place.Matches]
      · next notBackslash =>
        split at stepped <;> cases stepped
        simp [Quotation.step, notQuote, notBackslash, Place.Matches, push]
  · next escape =>
    rw [escape] at places
    cases places
    split at stepped
    · cases stepped
      exact fun _ => rfl
    · split at stepped <;> cases stepped
      rfl
  · next bytes value valid leading code =>
    rw [code] at places
    simp only at stepped
    split at stepped
    · cases stepped
      intro stillValid
      obtain ⟨isValid, isDigit⟩ := Bool.and_eq_true_iff.mp stillValid
      rw [places isValid]
      exact hexadecimalInside isDigit
    · split at stepped
      · next stillValid =>
        obtain ⟨isValid, isDigit⟩ := Bool.and_eq_true_iff.mp stillValid
        obtain ⟨ended, ends, same⟩ := mapOk.mp stepped
        cases same
        rw [places isValid, hexadecimalInside isDigit]
        exact endCodeMatches ends
      · cases stepped
  · next nextEscape =>
    rw [nextEscape] at places
    cases places
    split at stepped
    · next backslash =>
      cases stepped
      simp [Quotation.step, backslash, Place.Matches]
    · cases stepped
  · next nextCode =>
    rw [nextCode] at places
    cases places
    split at stepped <;> cases stepped
    exact fun _ => rfl

end QuotedText

namespace Phase

def Matches : Phase → Quotation → Prop
  | string _ quoted, quotation => quoted.place.Matches quotation
  | literal rest _, quotation => quotation = .outside ∧ ∀ letter ∈ rest, letter.isAlpha
  | _, quotation => quotation = .outside

variable {character : Char} {before after : Phase} {quotation : Quotation}

theorem IsBetween.matches (between : before.IsBetween) :
    before.Matches quotation ↔ quotation = .outside := by
  cases before <;> first | rfl | cases between

theorem outsideStep (notQuote : character ≠ '"') : Quotation.outside.step character = .outside := by
  simp [Quotation.step, notQuote]

theorem Step.matches (step : Step character before after) (places : before.Matches quotation) :
    after.Matches (quotation.step character) := by
  induction step with
  | blank between space =>
    have notQuote : character ≠ '"' := by
      rintro rfl
      cases space
    rw [between.matches] at places ⊢
    rw [places, outsideStep notQuote]
  | punctuation between _ betweenAfter isPunctuation =>
    have notQuote : character ≠ '"' := by
      rintro rfl
      revert isPunctuation
      decide
    rw [between.matches] at places
    rw [betweenAfter.matches, places, outsideStep notQuote]
  | beginString _ opens isQuote =>
    have outside : quotation = .outside := by
      rcases opens with before | before
      · exact before.isBetween.matches.mp places
      · exact before.isBetween.matches.mp places
    rw [outside, isQuote]
    rfl
  | beginNumber before starts =>
    have notQuote : character ≠ '"' := by
      rintro rfl
      exact absurd (Number.startCharacter starts) (by decide)
    rw [before.isBetween.matches] at places
    rw [places, outsideStep notQuote]
    rfl
  | beginLiteral _ before letters =>
    have notQuote : character ≠ '"' := by
      rintro rfl
      cases letters '"' List.mem_cons_self
    rw [before.isBetween.matches] at places
    rw [places, outsideStep notQuote]
    exact ⟨rfl, (List.forall_mem_cons.mp letters).2⟩
  | string stepped => exact QuotedText.stepMatches stepped places
  | @stringEnd _ _ quoted after stepped ends =>
    obtain ⟨plain, isQuote⟩ := QuotedText.stepComplete stepped
    have inside : quotation = .inside := by
      simpa [Matches, plain, QuotedText.Place.Matches] using places
    rw [inside, isQuote]
    rcases ends with rfl | rfl <;> rfl
  | number stepped =>
    have notQuote : character ≠ '"' := by
      rintro rfl
      exact absurd (Number.stepCharacter (Number.partStep stepped)) (by decide)
    rw [show quotation = .outside from places, outsideStep notQuote]
    rfl
  | numberEnd _ _ inductionHypothesis => exact inductionHypothesis places
  | literal _ _ =>
    obtain ⟨outside, letters⟩ := places
    obtain ⟨isLetter, letters⟩ := List.forall_mem_cons.mp letters
    have notQuote : character ≠ '"' := by
      rintro rfl
      cases isLetter
    rw [outside, outsideStep notQuote]
    exact ⟨rfl, letters⟩
  | literalEnd _ =>
    obtain ⟨outside, letters⟩ := places
    have notQuote : character ≠ '"' := by
      rintro rfl
      cases letters '"' List.mem_cons_self
    rw [outside, outsideStep notQuote]
    rfl

/-- The character for malformed bytes can stand in a string only. -/
theorem Step.replacement (step : Step Text.replacementCharacter before after)
    (places : before.Matches quotation) : ∃ asKey quoted, after = Phase.string asKey quoted := by
  induction step with
  | blank _ space => cases space
  | punctuation _ _ _ isPunctuation => exact absurd isPunctuation (by decide)
  | beginString asKey _ _ => exact ⟨asKey, _, rfl⟩
  | beginNumber _ starts => cases starts
  | beginLiteral _ _ letters => cases letters _ List.mem_cons_self
  | string _ => exact ⟨_, _, rfl⟩
  | stringEnd stepped _ => exact absurd (QuotedText.stepComplete stepped).2 (by decide)
  | number stepped => exact absurd (Number.stepCharacter (Number.partStep stepped)) (by decide)
  | numberEnd _ _ inductionHypothesis => exact inductionHypothesis places
  | literal _ _ => cases places.2 _ List.mem_cons_self
  | literalEnd _ => cases places.2 _ List.mem_cons_self

end Phase

end LintRepair.LintReport
