/-
This file follows the reader through the inside of a string.
-/

import LintRepair.Proofs.LintReport.Grammar

namespace LintRepair.LintReport

/-- A text leads from one part of a token to a later one without an end of the token. -/
def Leads {Token : Type} (step : Token → Char → Except Failure (Progress Token)) :
    Token → List Char → Token → Prop
  | token, [], after => token = after
  | token, character :: text, after =>
    ∃ next, step token character = .ok (.more next) ∧ Leads step next text after

theorem Leads.append {Token : Type} {step : Token → Char → Except Failure (Progress Token)}
    {token between after : Token} {first second : List Char} (leads : Leads step token first between)
    (onwards : Leads step between second after) : Leads step token (first ++ second) after := by
  induction first generalizing token with
  | nil =>
    cases leads
    exact onwards
  | cons character first inductionHypothesis =>
    obtain ⟨next, stepped, leads⟩ := leads
    exact ⟨next, stepped, inductionHypothesis leads⟩

namespace QuotedText

theorem hexadecimalOfDigit {value : Nat} {digit : Char} (isDigit : HexadecimalDigit value digit) :
    hexadecimal? digit = some value ∧ digit.utf8Size = 1 := by
  obtain ⟨small, isLower | isUpper⟩ := isDigit
  · have table : ∀ value < 16, hexadecimal? value.digitChar = some value ∧
        value.digitChar.utf8Size = 1 := by decide
    exact isLower ▸ table value small
  · have table : ∀ value < 16, hexadecimal? value.digitChar.toUpper = some value ∧
        value.digitChar.toUpper.utf8Size = 1 := by decide
    exact isUpper ▸ table value small

theorem escapedOfLetter {character letter : Char} (inside : (character, letter) ∈ letterEscapes) :
    letter ≠ 'u' ∧ escaped? letter = some character := by
  have table : ∀ escape ∈ letterEscapes, escape.2 ≠ 'u' ∧ escaped? escape.2 = some escape.1 := by
    decide
  exact table _ inside

variable {kept : Bool} {reversed : List Char}

theorem plainLeads {character : Char} (plain : IsPlain character) :
    Leads (step kept) ⟨reversed, .plain⟩ [character] ⟨character :: reversed, .plain⟩ := by
  obtain ⟨printable, notQuote, notBackslash⟩ := plain
  have notControl : ¬ character < ' ' := Char.not_lt.mpr printable
  exact ⟨_, by simp only [step, notQuote, notBackslash, notControl, if_false]; rfl, rfl⟩

theorem letterLeads {character letter : Char} (inside : (character, letter) ∈ letterEscapes) :
    Leads (step kept) ⟨reversed, .plain⟩ ['\\', letter] ⟨character :: reversed, .plain⟩ := by
  obtain ⟨notCode, escaped⟩ := escapedOfLetter inside
  exact ⟨⟨reversed, .escape⟩, rfl, _, by simp only [step, notCode, escaped, if_false]; rfl, rfl⟩

section Codes

variable {leading : Option Nat} {earlier value : Nat} {digit : Char}

theorem digitStep (isDigit : HexadecimalDigit value digit) {bytes : Nat} (early : bytes + 1 < 4) :
    step kept ⟨reversed, .code bytes earlier true leading⟩ digit =
      .ok (.more ⟨reversed, .code (bytes + 1) (earlier * 16 + value) true leading⟩) := by
  obtain ⟨read, size⟩ := hexadecimalOfDigit isDigit
  simp only [step, read, size, early, if_true]
  rfl

theorem lastDigitStep (isDigit : HexadecimalDigit value digit) :
    step kept ⟨reversed, .code 3 earlier true leading⟩ digit =
      (endCode kept ⟨reversed, .plain⟩ (earlier * 16 + value) leading).map .more := by
  obtain ⟨read, size⟩ := hexadecimalOfDigit isDigit
  simp only [step, read, size]
  rfl

/-- Four hexadecimal digits are judged by their value. -/
theorem codeLeads {written : List Char} (escape : CodeEscape value written)
    {before after : QuotedText}
    (opened : Leads (step kept) before ['\\', 'u'] ⟨reversed, .code 0 0 true leading⟩)
    (ends : endCode kept ⟨reversed, .plain⟩ value leading = .ok after) :
    Leads (step kept) before written after := by
  cases escape with
  | digits isFirst isSecond isThird isFourth =>
    refine opened.append ⟨_, digitStep isFirst (by decide), _, digitStep isSecond (by decide), _,
      digitStep isThird (by decide), after, ?_, rfl⟩
    rw [lastDigitStep isFourth, Nat.zero_mul, Nat.zero_add, ends]
    rfl

end Codes

/-- A character is not a surrogate. -/
theorem notSurrogate (character : Char) :
    isLeading character.toNat = false ∧ isTrailing character.toNat = false := by
  have valid := character.valid
  simp only [isLeading, isTrailing, Bool.and_eq_false_iff, decide_eq_false_iff_not]
  change character.toNat < 0xd800 ∨ 0xdfff < character.toNat ∧ character.toNat < 0x110000 at valid
  omega

theorem characterLeads {character : Char} {written : List Char}
    (text : CharacterText character written) :
    Leads (step true) ⟨reversed, .plain⟩ written ⟨character :: reversed, .plain⟩ := by
  cases text with
  | plain isPlain => exact plainLeads isPlain
  | letter inside => exact letterLeads inside
  | code escape =>
    refine codeLeads escape ⟨_, rfl, _, rfl, rfl⟩ ?_
    obtain ⟨notLeading, notTrailing⟩ := notSurrogate character
    simp [endCode, notLeading, notTrailing, push]
  | @pair leading trailing opening closing isOpening isClosing leadingFits trailingFits isPair =>
    have isLeading : isLeading (0xD800 + leading) := by simp [isLeading]; omega
    have notTrailing : isTrailing (0xD800 + leading) = false := by simp [isTrailing]; omega
    have isTrailing : isTrailing (0xDC00 + trailing) := by simp [isTrailing]; omega
    have leads : Leads (step true) ⟨reversed, .plain⟩ opening
        ⟨reversed, .nextEscape (0xD800 + leading)⟩ := by
      refine codeLeads isOpening ⟨_, rfl, _, rfl, rfl⟩ ?_
      simp [endCode, isLeading, notTrailing]
    refine leads.append (codeLeads isClosing ⟨_, rfl, _, rfl, rfl⟩ ?_)
    have value : leading * 0x400 + trailing + 0x10000 = character.toNat := by omega
    simp [endCode, isTrailing, push, value]

theorem escapedLeads {text written : List Char} (escaped : EscapedText text written) :
    Leads (step true) ⟨reversed, .plain⟩ written ⟨text.reverse ++ reversed, .plain⟩ := by
  induction escaped generalizing reversed with
  | nil => rfl
  | cons character _ inductionHypothesis =>
    rw [List.reverse_cons, List.append_assoc]
    exact (characterLeads character).append inductionHypothesis

/-- In a string that is passed over the escapes are not paired. -/
theorem insideLeads {written : List Char} (inside : StringInside written) (reversed : List Char) :
    ∃ after, Leads (step false) ⟨reversed, .plain⟩ written ⟨after, .plain⟩ := by
  induction inside generalizing reversed with
  | nil => exact ⟨_, rfl⟩
  | plain isPlain _ inductionHypothesis =>
    obtain ⟨after, leads⟩ := inductionHypothesis _
    exact ⟨after, (plainLeads isPlain).append leads⟩
  | letter isEscape _ inductionHypothesis =>
    obtain ⟨after, leads⟩ := inductionHypothesis _
    exact ⟨after, (letterLeads isEscape).append leads⟩
  | code escape _ inductionHypothesis =>
    obtain ⟨after, leads⟩ := inductionHypothesis _
    exact ⟨after, (codeLeads escape ⟨_, rfl, _, rfl, rfl⟩ rfl).append leads⟩

end QuotedText

end LintRepair.LintReport
