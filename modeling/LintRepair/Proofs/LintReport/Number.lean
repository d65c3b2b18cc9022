/-
This file follows the reader through a number, and shows that the numbers it reads to their end are
those of JSON's grammar.
-/

import LintRepair.Proofs.LintReport.QuotedText
import LintRepair.Proofs.Text.Numeral

namespace LintRepair.LintReport

/-- Behind a token comes white space, a comma, a colon or a closing bracket. -/
def Delimits (character : Char) : Prop :=
  character ∈ [' ', '\n', '\t', '\r', ',', ':', ']', '}']

instance : DecidablePred Delimits := fun character =>
  inferInstanceAs (Decidable (character ∈ [' ', '\n', '\t', '\r', ',', ':', ']', '}']))

/-- The characters of which numbers are written. -/
def IsNumberCharacter (character : Char) : Prop :=
  character.isDigit ∨ character ∈ ['.', 'e', 'E', '+', '-']

instance : DecidablePred IsNumberCharacter := fun character =>
  inferInstanceAs (Decidable (character.isDigit ∨ character ∈ ['.', 'e', 'E', '+', '-']))

namespace Number

/-- A text is read as a number, which goes on to its end. -/
def Reads (text : List Char) (number : Number) : Prop :=
  ∃ first rest initial, text = first :: rest ∧ start? first = some initial ∧
    Leads step initial rest number

theorem Reads.append {text behind : List Char} {number after : Number} (reads : Reads text number)
    (leads : Leads step number behind after) : Reads (text ++ behind) after := by
  obtain ⟨first, rest, initial, rfl, starts, leadsFirst⟩ := reads
  exact ⟨first, rest ++ behind, initial, rfl, starts, leadsFirst.append leads⟩

/-- Digits within one part of a number are all read in the same way. -/
theorem digitsLead (part : Part) (push : Number → Char → Number)
    (steps : ∀ number digit, number.part = part → digit.isDigit →
      step number digit = .ok (.more (push number digit)) ∧ (push number digit).part = part)
    {digits : List Char} (areDigits : ∀ digit ∈ digits, digit.isDigit) (number : Number)
    (inPart : number.part = part) :
    Leads step number digits (digits.foldl push number) ∧
      (digits.foldl push number).part = part := by
  induction digits generalizing number with
  | nil => exact ⟨rfl, inPart⟩
  | cons digit digits inductionHypothesis =>
    obtain ⟨isDigit, areDigits⟩ := List.forall_mem_cons.mp areDigits
    obtain ⟨stepped, staysInPart⟩ := steps number digit inPart isDigit
    obtain ⟨leads, ends⟩ := inductionHypothesis areDigits _ staysInPart
    exact ⟨⟨_, stepped, leads⟩, ends⟩

section Parts

variable {digits : List Char} (areDigits : ∀ digit ∈ digits, digit.isDigit) (number : Number)

include areDigits

theorem wholeLeads (inPart : number.part = .whole) :
    Leads step number digits (digits.foldl pushWhole number) ∧
      (digits.foldl pushWhole number).part = .whole := by
  refine digitsLead .whole pushWhole ?_ areDigits number inPart
  intro number digit inPart isDigit
  simp [step, inPart, isDigit, pushWhole]

theorem fractionLeads (inPart : number.part = .fraction) :
    Leads step number digits (digits.foldl pushFraction number) ∧
      (digits.foldl pushFraction number).part = .fraction := by
  refine digitsLead .fraction pushFraction ?_ areDigits number inPart
  intro number digit inPart isDigit
  simp [step, inPart, isDigit, pushFraction]

theorem exponentLeads (inPart : number.part = .exponent) :
    Leads step number digits (digits.foldl pushExponent number) ∧
      (digits.foldl pushExponent number).part = .exponent := by
  refine digitsLead .exponent pushExponent ?_ areDigits number inPart
  intro number digit inPart isDigit
  simp [step, inPart, isDigit, pushExponent]

end Parts

theorem pushedWhole (digits : List Char) (number : Number) :
    (digits.foldl pushWhole number).whole = digits.reverse ++ number.whole ∧
      (digits.foldl pushWhole number).negative = number.negative := by
  induction digits generalizing number with
  | nil => exact ⟨rfl, rfl⟩
  | cons digit digits inductionHypothesis =>
    obtain ⟨whole, negative⟩ := inductionHypothesis (number.pushWhole digit)
    exact ⟨by rw [List.foldl_cons, whole]; simp [pushWhole], negative⟩

/-- The number up to the point, without a sign. -/
theorem wholeReads {whole : List Char} (form : IsWhole whole) :
    ∃ number, Reads whole number ∧ (number.part = .zero ∨ number.part = .whole) ∧
      number.negative = false ∧ number.whole.reverse = whole := by
  rcases form with rfl | ⟨⟨notEmpty, areDigits⟩, noZero⟩
  · exact ⟨_, ⟨_, _, _, rfl, rfl, rfl⟩, .inl rfl, rfl, rfl⟩
  obtain ⟨first, rest, rfl⟩ := List.exists_cons_of_ne_nil notEmpty
  obtain ⟨isDigit, areDigits⟩ := List.forall_mem_cons.mp areDigits
  have notZero : first ≠ '0' := by simpa using noZero
  have notSign : first ≠ '-' := by
    rintro rfl
    cases isDigit
  have starts : start? first = some ⟨false, [first], [], false, [], .whole⟩ := by
    simp [start?, notSign, notZero, isDigit]
  obtain ⟨leads, inPart⟩ := wholeLeads areDigits ⟨false, [first], [], false, [], .whole⟩ rfl
  obtain ⟨pushed, negative⟩ := pushedWhole rest ⟨false, [first], [], false, [], .whole⟩
  exact ⟨_, ⟨_, _, _, rfl, starts, leads⟩, .inr inPart, negative, by rw [pushed]; simp⟩

/-- The number up to the point, with a minus sign. -/
theorem signedReads {whole : List Char} (form : IsWhole whole) :
    ∃ number, Reads ('-' :: whole) number ∧ (number.part = .zero ∨ number.part = .whole) := by
  rcases form with rfl | ⟨⟨notEmpty, areDigits⟩, noZero⟩
  · exact ⟨_, ⟨_, _, _, rfl, rfl, _, rfl, rfl⟩, .inl rfl⟩
  obtain ⟨first, rest, rfl⟩ := List.exists_cons_of_ne_nil notEmpty
  obtain ⟨isDigit, areDigits⟩ := List.forall_mem_cons.mp areDigits
  have notZero : first ≠ '0' := by simpa using noZero
  have signed : step ⟨true, [], [], false, [], .sign⟩ first =
      .ok (.more ⟨true, [first], [], false, [], .whole⟩) := by
    simp [step, isDigit, pushWhole, notZero]
  obtain ⟨leads, inPart⟩ := wholeLeads areDigits ⟨true, [first], [], false, [], .whole⟩ rfl
  exact ⟨_, ⟨_, _, _, rfl, rfl, _, signed, leads⟩, .inr inPart⟩

/-- A numeral is read as its value. -/
theorem numeralReads {value : Nat} (inRange : value < Text.wordLimit) :
    ∃ number, Reads (Nat.toDigits 10 value) number ∧ number.isComplete ∧
      number.natural? = some value := by
  have form : IsWhole (Nat.toDigits 10 value) := by
    by_cases zero : (Nat.toDigits 10 value).head? = some '0'
    · exact .inl (Text.noLeadingZero zero)
    · exact .inr ⟨⟨Nat.toDigits_ne_nil, Text.digitsAreDigits value⟩, zero⟩
  obtain ⟨number, reads, inPart, notNegative, whole⟩ := wholeReads form
  have natural : number.natural? = some value := by
    rw [← Text.numeralOfDigits inRange, ← whole]
    rcases inPart with inPart | inPart <;> simp [natural?, notNegative, inPart]
  refine ⟨number, reads, ?_, natural⟩
  rcases inPart with inPart | inPart <;> simp [isComplete, inPart]

theorem fractionFollows {fraction : List Char} (form : IsFraction fraction) {number : Number}
    (inPart : number.part = .zero ∨ number.part = .whole) :
    ∃ after, Leads step number fraction after ∧
      (after.part = .zero ∨ after.part = .whole ∨ after.part = .fraction) := by
  rcases form with rfl | ⟨digits, ⟨notEmpty, areDigits⟩, rfl⟩
  · exact ⟨number, rfl, inPart.imp_right .inl⟩
  obtain ⟨first, rest, rfl⟩ := List.exists_cons_of_ne_nil notEmpty
  obtain ⟨isDigit, areDigits⟩ := List.forall_mem_cons.mp areDigits
  have pointed : step number '.' = .ok (.more { number with part := .point }) := by
    rcases inPart with inPart | inPart <;> simp [step, inPart, stepBehind]
  have begun : step { number with part := .point } first =
      .ok (.more (pushFraction { number with part := .point } first)) := by
    simp [step, isDigit]
  obtain ⟨leads, ends⟩ :=
    fractionLeads areDigits (pushFraction { number with part := .point } first) rfl
  exact ⟨_, ⟨_, pointed, _, begun, leads⟩, .inr (.inr ends)⟩

theorem exponentFollows {exponent : List Char} (form : IsExponent exponent) {number : Number}
    (inPart : number.part = .zero ∨ number.part = .whole ∨ number.part = .fraction) :
    ∃ after, Leads step number exponent after ∧ after.isComplete := by
  rcases form with rfl | ⟨mark, isMark, sign, isSign, digits, ⟨notEmpty, areDigits⟩, rfl⟩
  · refine ⟨number, rfl, ?_⟩
    rcases inPart with inPart | inPart | inPart <;> simp [isComplete, inPart]
  obtain ⟨first, rest, rfl⟩ := List.exists_cons_of_ne_nil notEmpty
  obtain ⟨isDigit, areDigits⟩ := List.forall_mem_cons.mp areDigits
  have marked : step number mark = .ok (.more { number with part := .exponentMark }) := by
    simp only [List.mem_cons, List.not_mem_nil, or_false] at isMark
    rcases inPart with inPart | inPart | inPart <;> rcases isMark with rfl | rfl <;>
      simp [step, inPart, stepBehind]
  -- Without a sign the first digit stands behind the letter.
  have signed : ∃ between, Leads step { number with part := .exponentMark } sign between ∧
      (between.part = .exponentMark ∨ between.part = .exponentSign) := by
    simp only [List.mem_cons, List.not_mem_nil, or_false] at isSign
    rcases isSign with rfl | rfl | rfl
    · exact ⟨_, rfl, .inl rfl⟩
    · exact ⟨_, ⟨_, rfl, rfl⟩, .inr rfl⟩
    · exact ⟨_, ⟨_, rfl, rfl⟩, .inr rfl⟩
  obtain ⟨between, signLeads, signEnds⟩ := signed
  have begun : step between first = .ok (.more (between.pushExponent first)) := by
    have notSign : first ≠ '+' ∧ first ≠ '-' := by
      constructor <;> rintro rfl <;> cases isDigit
    rcases signEnds with inPart | inPart <;> simp [step, inPart, isDigit, notSign]
  obtain ⟨leads, ends⟩ := exponentLeads areDigits (between.pushExponent first) rfl
  refine ⟨_, ⟨_, marked, signLeads.append ⟨_, begun, leads⟩⟩, ?_⟩
  simp [isComplete, ends]

/-- Every number of JSON's grammar is read to its end. -/
theorem anyReads {text : List Char} (form : AnyNumber text) :
    ∃ number, Reads text number ∧ number.isComplete := by
  obtain ⟨sign, whole, fraction, exponent, isSign, isWhole, isFraction, isExponent, rfl⟩ := form
  have begins : ∃ number, Reads (sign ++ whole) number ∧
      (number.part = .zero ∨ number.part = .whole) := by
    rcases isSign with rfl | rfl
    · obtain ⟨number, reads, inPart, -⟩ := wholeReads isWhole
      exact ⟨number, reads, inPart⟩
    · exact signedReads isWhole
  obtain ⟨first, reads, inFirst⟩ := begins
  obtain ⟨second, leadsSecond, inSecond⟩ := fractionFollows isFraction inFirst
  obtain ⟨third, leadsThird, complete⟩ := exponentFollows isExponent inSecond
  exact ⟨third, (reads.append leadsSecond).append leadsThird, complete⟩

/-- How a number may be written up to one of its parts. -/
def Form : Part → List Char → Prop
  | .sign, text => text = ['-']
  | .zero, text => ∃ sign, IsSign sign ∧ text = sign ++ ['0']
  | .whole, text => ∃ sign digits, IsSign sign ∧ Digits digits ∧ digits.head? ≠ some '0' ∧
      text = sign ++ digits
  | .point, text => ∃ sign whole, IsSign sign ∧ IsWhole whole ∧ text = sign ++ whole ++ ['.']
  | .fraction, text => ∃ sign whole digits, IsSign sign ∧ IsWhole whole ∧ Digits digits ∧
      text = sign ++ whole ++ '.' :: digits
  | .exponentMark, text => ∃ sign whole fraction, IsSign sign ∧ IsWhole whole ∧
      IsFraction fraction ∧ ∃ mark ∈ ['e', 'E'], text = sign ++ whole ++ fraction ++ [mark]
  | .exponentSign, text => ∃ sign whole fraction, IsSign sign ∧ IsWhole whole ∧
      IsFraction fraction ∧ ∃ mark ∈ ['e', 'E'], ∃ exponentSign ∈ ['+', '-'],
        text = sign ++ whole ++ fraction ++ [mark, exponentSign]
  | .exponent, text => ∃ sign whole fraction, IsSign sign ∧ IsWhole whole ∧
      IsFraction fraction ∧ ∃ mark ∈ ['e', 'E'], ∃ exponentSign ∈ [[], ['+'], ['-']], ∃ digits,
        Digits digits ∧ text = sign ++ whole ++ fraction ++ (mark :: exponentSign ++ digits)

theorem digitsPush {digits : List Char} (areDigits : Digits digits) {digit : Char}
    (isDigit : digit.isDigit) : Digits (digits ++ [digit]) := by
  refine ⟨by simp, ?_⟩
  intro character inside
  rcases List.mem_append.mp inside with earlier | last
  · exact areDigits.2 character earlier
  · rw [List.mem_singleton.mp last]
    exact isDigit

theorem digitsSingle {digit : Char} (isDigit : digit.isDigit) : Digits [digit] :=
  ⟨by simp, by simpa using isDigit⟩

/-- The changes of the part by one character of a number. -/
inductive Part.Step (character : Char) : Part → Part → Prop where
  | zero : character = '0' → Step character sign zero
  | signedWhole : character.isDigit → character ≠ '0' → Step character sign whole
  | whole : character.isDigit → Step character whole whole
  | point {before : Part} : before = zero ∨ before = whole → character = '.' →
      Step character before point
  | fraction {before : Part} : before = point ∨ before = fraction → character.isDigit →
      Step character before fraction
  | exponentMark {before : Part} : before = zero ∨ before = whole ∨ before = fraction →
      character ∈ ['e', 'E'] → Step character before exponentMark
  | exponentSign : character ∈ ['+', '-'] → Step character exponentMark exponentSign
  | exponent {before : Part} :
      before = exponentMark ∨ before = exponentSign ∨ before = exponent → character.isDigit →
      Step character before exponent

section Steps

variable {number after : Number} {character : Char}

theorem stepBehindMore {pointAllowed : Bool}
    (stepped : number.stepBehind pointAllowed character = .more after) :
    (pointAllowed ∧ character = '.' ∧ after.part = .point) ∨
      (character ∈ ['e', 'E'] ∧ after.part = .exponentMark) := by
  unfold stepBehind at stepped
  split at stepped
  · next point =>
    cases stepped
    simp only [Bool.and_eq_true, decide_eq_true_eq] at point
    exact .inl ⟨point.1, point.2, rfl⟩
  · split at stepped
    · next mark =>
      cases stepped
      exact .inr ⟨by simpa using mark, rfl⟩
    · cases stepped

theorem partStep (stepped : number.step character = .ok (.more after)) :
    Part.Step character number.part after.part := by
  cases part : number.part <;> simp only [step, part] at stepped <;> split at stepped
  case sign.isTrue isDigit =>
    cases stepped
    by_cases zero : character = '0'
    · simpa [pushWhole, part, zero] using Part.Step.zero zero
    · simpa [pushWhole, part, zero] using Part.Step.signedWhole isDigit zero
  case zero.isFalse =>
    rcases stepBehindMore (Except.ok.inj stepped) with ⟨-, point, inPart⟩ | ⟨mark, inPart⟩
    · exact inPart ▸ .point (.inl rfl) point
    · exact inPart ▸ .exponentMark (.inl rfl) mark
  case whole.isTrue isDigit =>
    cases stepped
    simpa [pushWhole, part] using Part.Step.whole isDigit
  case whole.isFalse =>
    rcases stepBehindMore (Except.ok.inj stepped) with ⟨-, point, inPart⟩ | ⟨mark, inPart⟩
    · exact inPart ▸ .point (.inr rfl) point
    · exact inPart ▸ .exponentMark (.inr (.inl rfl)) mark
  case point.isTrue isDigit =>
    cases stepped
    exact .fraction (.inl rfl) isDigit
  case fraction.isTrue isDigit =>
    cases stepped
    exact .fraction (.inr rfl) isDigit
  case fraction.isFalse =>
    rcases stepBehindMore (Except.ok.inj stepped) with ⟨no, -⟩ | ⟨mark, inPart⟩
    · cases no
    · exact inPart ▸ .exponentMark (.inr (.inr rfl)) mark
  case exponentMark.isTrue plus =>
    cases stepped
    exact .exponentSign (by simp [plus])
  case exponentMark.isFalse =>
    split at stepped
    · next minus =>
      cases stepped
      exact .exponentSign (by simp [minus])
    · split at stepped
      · next isDigit =>
        cases stepped
        exact .exponent (.inl rfl) isDigit
      · cases stepped
  case exponentSign.isTrue isDigit =>
    cases stepped
    exact .exponent (.inr (.inl rfl)) isDigit
  case exponent.isTrue isDigit =>
    cases stepped
    exact .exponent (.inr (.inr rfl)) isDigit
  all_goals cases stepped

end Steps

/-- Each character of a number keeps to the grammar. -/
theorem formStep {before after : Part} {text : List Char} {character : Char}
    (form : Form before text) (stepped : Part.Step character before after) :
    Form after (text ++ [character]) := by
  cases stepped with
  | zero isZero =>
    cases form
    exact ⟨['-'], .inr rfl, by rw [isZero]⟩
  | signedWhole isDigit notZero =>
    cases form
    exact ⟨['-'], [character], .inr rfl, digitsSingle isDigit, by simpa using notZero, rfl⟩
  | whole isDigit =>
    obtain ⟨sign, digits, isSign, areDigits, noZero, rfl⟩ := form
    refine ⟨sign, digits ++ [character], isSign, digitsPush areDigits isDigit, ?_, by simp⟩
    rwa [List.head?_append_of_ne_nil _ areDigits.1]
  | point inPart isPoint =>
    rcases inPart with rfl | rfl
    · obtain ⟨sign, isSign, rfl⟩ := form
      exact ⟨sign, ['0'], isSign, .inl rfl, by rw [isPoint]⟩
    · obtain ⟨sign, digits, isSign, areDigits, noZero, rfl⟩ := form
      exact ⟨sign, digits, isSign, .inr ⟨areDigits, noZero⟩, by rw [isPoint]⟩
  | fraction inPart isDigit =>
    rcases inPart with rfl | rfl
    · obtain ⟨sign, whole, isSign, isWhole, rfl⟩ := form
      exact ⟨sign, whole, [character], isSign, isWhole, digitsSingle isDigit, by simp⟩
    · obtain ⟨sign, whole, digits, isSign, isWhole, areDigits, rfl⟩ := form
      exact ⟨sign, whole, digits ++ [character], isSign, isWhole, digitsPush areDigits isDigit,
        by simp⟩
  | exponentMark inPart isMark =>
    rcases inPart with rfl | rfl | rfl
    · obtain ⟨sign, isSign, rfl⟩ := form
      exact ⟨sign, ['0'], [], isSign, .inl rfl, .inl rfl, character, isMark, by simp⟩
    · obtain ⟨sign, digits, isSign, areDigits, noZero, rfl⟩ := form
      exact ⟨sign, digits, [], isSign, .inr ⟨areDigits, noZero⟩, .inl rfl, character, isMark,
        by simp⟩
    · obtain ⟨sign, whole, digits, isSign, isWhole, areDigits, rfl⟩ := form
      exact ⟨sign, whole, '.' :: digits, isSign, isWhole, .inr ⟨digits, areDigits, rfl⟩, character,
        isMark, rfl⟩
  | exponentSign isExponentSign =>
    obtain ⟨sign, whole, fraction, isSign, isWhole, isFraction, mark, isMark, rfl⟩ := form
    exact ⟨sign, whole, fraction, isSign, isWhole, isFraction, mark, isMark, character,
      isExponentSign, by simp⟩
  | exponent inPart isDigit =>
    rcases inPart with rfl | rfl | rfl
    · obtain ⟨sign, whole, fraction, isSign, isWhole, isFraction, mark, isMark, rfl⟩ := form
      exact ⟨sign, whole, fraction, isSign, isWhole, isFraction, mark, isMark, [], by simp,
        [character], digitsSingle isDigit, by simp⟩
    · obtain ⟨sign, whole, fraction, isSign, isWhole, isFraction, mark, isMark, exponentSign,
        isExponentSign, rfl⟩ := form
      exact ⟨sign, whole, fraction, isSign, isWhole, isFraction, mark, isMark, [exponentSign],
        by simpa using isExponentSign, [character], digitsSingle isDigit, by simp⟩
    · obtain ⟨sign, whole, fraction, isSign, isWhole, isFraction, mark, isMark, exponentSign,
        isExponentSign, digits, areDigits, rfl⟩ := form
      exact ⟨sign, whole, fraction, isSign, isWhole, isFraction, mark, isMark, exponentSign,
        isExponentSign, digits ++ [character], digitsPush areDigits isDigit, by simp⟩

theorem formLeads {number ended : Number} {before text : List Char}
    (form : Form number.part before) (leads : Leads step number text ended) :
    Form ended.part (before ++ text) := by
  induction text generalizing number before with
  | nil =>
    cases leads
    simpa using form
  | cons character text inductionHypothesis =>
    obtain ⟨next, stepped, leads⟩ := leads
    simpa using inductionHypothesis (formStep form (partStep stepped)) leads

theorem formStart {character : Char} {number : Number} (starts : start? character = some number) :
    Form number.part [character] := by
  unfold start? at starts
  split at starts
  · next minus =>
    cases starts
    exact congrArg (fun only => [only]) minus
  · split at starts
    · next zero =>
      cases starts
      exact ⟨[], .inl rfl, by rw [zero]; rfl⟩
    · split at starts
      · next notZero isDigit =>
        cases starts
        exact ⟨[], [character], .inl rfl, digitsSingle isDigit, by simpa using notZero, rfl⟩
      · cases starts

/-- What is read to its end as a number is a number of JSON's grammar. -/
theorem anyOfReads {text : List Char} {number : Number} (reads : Reads text number)
    (complete : number.isComplete) : AnyNumber text := by
  obtain ⟨first, rest, initial, rfl, starts, leads⟩ := reads
  have form : Form number.part (first :: rest) := formLeads (formStart starts) leads
  unfold isComplete at complete
  split at complete
  · next part =>
    rw [part] at form
    obtain ⟨sign, isSign, spelled⟩ := form
    exact ⟨sign, ['0'], [], [], isSign, .inl rfl, .inl rfl, .inl rfl, by simp [spelled]⟩
  · next part =>
    rw [part] at form
    obtain ⟨sign, digits, isSign, areDigits, noZero, spelled⟩ := form
    exact ⟨sign, digits, [], [], isSign, .inr ⟨areDigits, noZero⟩, .inl rfl, .inl rfl,
      by simp [spelled]⟩
  · next part =>
    rw [part] at form
    obtain ⟨sign, whole, digits, isSign, isWhole, areDigits, spelled⟩ := form
    exact ⟨sign, whole, '.' :: digits, [], isSign, isWhole, .inr ⟨digits, areDigits, rfl⟩, .inl rfl,
      by simp [spelled]⟩
  · next part =>
    rw [part] at form
    obtain ⟨sign, whole, fraction, isSign, isWhole, isFraction, mark, isMark, exponentSign,
      isExponentSign, digits, areDigits, spelled⟩ := form
    exact ⟨sign, whole, fraction, _, isSign, isWhole, isFraction,
      .inr ⟨mark, isMark, exponentSign, isExponentSign, digits, areDigits, rfl⟩, spelled⟩
  all_goals cases complete

section Characters

variable {number ended : Number} {character : Char}

theorem stepCharacter {before after : Part} (step : Part.Step character before after) :
    IsNumberCharacter character := by
  cases step with
  | zero isZero => exact .inl (isZero ▸ rfl)
  | signedWhole isDigit | whole isDigit | fraction _ isDigit | exponent _ isDigit =>
    exact .inl isDigit
  | point _ isPoint => exact .inr (by simp [isPoint])
  | exponentMark _ isMark | exponentSign isMark =>
    simp only [List.mem_cons, List.not_mem_nil, or_false] at isMark
    rcases isMark with rfl | rfl <;> exact .inr (by decide)

theorem startCharacter (starts : start? character = some number) :
    IsNumberCharacter character := by
  unfold start? at starts
  split at starts
  · next minus => exact .inr (by simp [minus])
  · split at starts
    · next zero => exact .inl (zero ▸ rfl)
    · split at starts
      · next isDigit => exact .inl isDigit
      · cases starts

theorem leadsCharacters {text : List Char} (leads : Leads step number text ended) :
    ∀ character ∈ text, IsNumberCharacter character := by
  induction text generalizing number with
  | nil => exact fun _ no => by cases no
  | cons character text inductionHypothesis =>
    obtain ⟨next, stepped, leads⟩ := leads
    exact List.forall_mem_cons.mpr ⟨stepCharacter (partStep stepped), inductionHypothesis leads⟩

theorem anyCharacters {text : List Char} (isNumber : AnyNumber text) :
    ∀ character ∈ text, IsNumberCharacter character := by
  obtain ⟨number, ⟨first, rest, initial, rfl, starts, leads⟩, -⟩ := anyReads isNumber
  exact List.forall_mem_cons.mpr ⟨startCharacter starts, leadsCharacters leads⟩

end Characters

/-- A number ends behind a digit only. -/
theorem stepComplete {number : Number} {character : Char}
    (stepped : number.step character = .ok .complete) :
    number.isComplete := by
  cases part : number.part <;> simp only [isComplete, part]
  all_goals
    simp only [step, part] at stepped
    split at stepped <;> try cases stepped
  split at stepped <;> try cases stepped
  split at stepped <;> cases stepped

/-- A number ends before a delimiter. -/
theorem stepDelimiter {number : Number} (complete : number.isComplete) {next : Char}
    (delimits : Delimits next) : step number next = .ok .complete := by
  have plain : next.isDigit = false ∧ next ≠ '.' ∧ next ≠ 'e' ∧ next ≠ 'E' := by
    simp only [Delimits, List.mem_cons, List.not_mem_nil, or_false] at delimits
    rcases delimits with rfl | rfl | rfl | rfl | rfl | rfl | rfl | rfl <;> decide
  obtain ⟨notDigit, notPoint, notMark, notCapital⟩ := plain
  unfold isComplete at complete
  split at complete <;>
    simp_all [step, stepBehind]

end Number

end LintRepair.LintReport
