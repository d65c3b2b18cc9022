/-
This file follows the reader through a string on one line.
-/

import LintRepair.Proofs.Toml.Grammar
import Mathlib.Data.List.Forall2

namespace LintRepair.Toml

theorem StringText.begins {value : String} {text : List Char} (written : StringText value text) :
    ∃ behind, text = '"' :: behind := by
  obtain ⟨inside, -, rfl⟩ := written
  exact ⟨_, rfl⟩

namespace QuotedText

open LintReport (HexadecimalDigit)

/-- What was read stands before what is read on. -/
def withFront (front : List Char) (read : List Char × List Char) : List Char × List Char :=
  (front ++ read.1, read.2)

/-- A written text leads the reader from one place to a later one and adds to the text of the
string. -/
def Leads (kind : Kind) (place : Place) (written added : List Char) (after : Place) : Prop :=
  ∀ rest, readLine kind place (written ++ rest) = (readLine kind after rest).map (withFront added)

variable {kind : Kind} {place between after : Place} {first second added further : List Char}
  {character : Char}

theorem Leads.nil : Leads kind place [] [] place := by
  intro rest
  have unchanged : withFront [] = id := rfl
  rw [unchanged, Option.map_id, id, List.nil_append]

theorem Leads.append (leads : Leads kind place first added between)
    (onwards : Leads kind between second further after) :
    Leads kind place (first ++ second) (added ++ further) after := by
  intro rest
  have front : withFront added ∘ withFront further = withFront (added ++ further) := by
    funext read
    simp [withFront]
  rw [List.append_assoc, leads, onwards, Option.map_map, front]

/-- One character that does not end the string. -/
theorem Leads.single (goesOn : character = kind.mark → place.mayEnd = false)
    (stepped : step kind place character = some (added, after)) :
    Leads kind place [character] added after := by
  intro rest
  have inside : ¬ (character = kind.mark && place.mayEnd) = true := by
    simpa using goesOn
  rw [List.singleton_append, readLine, if_neg inside, stepped]
  cases read : readLine kind after rest <;> simp [read, withFront]

theorem readsMark (kind : Kind) (rest : List Char) :
    readLine kind .plain (kind.mark :: rest) = some ([], rest) := by
  simp [readLine, Place.mayEnd]

section Escapes

theorem hexadecimalOfDigit {value : Nat} {digit : Char} (isDigit : HexadecimalDigit value digit) :
    hexadecimal? digit = some value := by
  obtain ⟨small, isLower | isUpper⟩ := isDigit
  · have table : ∀ value < 16, hexadecimal? value.digitChar = some value := by decide
    exact isLower ▸ table value small
  · have table : ∀ value < 16, hexadecimal? value.digitChar.toUpper = some value := by decide
    exact isUpper ▸ table value small

theorem escapedOfLetter {letter : Char} (inside : (character, letter) ∈ letterEscapes) :
    letter ≠ 'u' ∧ letter ≠ 'U' ∧ escaped? letter = some character := by
  have table : ∀ escape ∈ letterEscapes,
      escape.2 ≠ 'u' ∧ escape.2 ≠ 'U' ∧ escaped? escape.2 = some escape.1 := by
    decide
  exact table _ inside

theorem codeStep {letter : Char} {count : Nat} (inside : (letter, count) ∈ codeEscapes)
    (kind : Kind) :
    step kind .escape letter = some ([], .code count 0) ∧ count ≠ 0 := by
  simp only [codeEscapes, List.mem_cons, Prod.mk.injEq, List.not_mem_nil, or_false] at inside
  rcases inside with ⟨rfl, rfl⟩ | ⟨rfl, rfl⟩ <;> exact ⟨rfl, by decide⟩

/-- The digits that are missing complete the code of a character. -/
theorem digitsLead {digits : List Nat} {written : List Char} {earlier : Nat}
    (areDigits : List.Forall₂ HexadecimalDigit digits written) (notEmpty : digits ≠ [])
    (isCode : digits.foldl (fun value digit => value * 16 + digit) earlier = character.toNat) :
    Leads kind (.code digits.length earlier) written [character] .plain := by
  -- The digits that have been read are the value so far, so the induction is on the missing ones.
  induction areDigits generalizing earlier with
  | nil => exact absurd rfl notEmpty
  | @cons digit mark digits written isDigit areDigits inductionHypothesis =>
    have read := hexadecimalOfDigit isDigit
    cases areDigits with
    | nil =>
      have isCharacter : character? (earlier * 16 + digit) = some character := by
        rw [List.foldl_cons, List.foldl_nil] at isCode
        have valid : character.toNat.isValidChar := character.valid
        rw [isCode, character?, if_pos valid, Char.ofNat_toNat]
      refine .single (fun _ => rfl) ?_
      simp [step, stepCode, read, isCharacter]
    | @cons _ _ others =>
      have next := inductionHypothesis (List.cons_ne_nil _ _) isCode
      have stepped : step kind (.code (others.length + 2) earlier) mark =
          some ([], .code (others.length + 1) (earlier * 16 + digit)) := by
        have furtherMissing : 1 < others.length + 2 := by omega
        simp [step, stepCode, read, furtherMissing]
      exact (Leads.single (fun _ => rfl) stepped).append next

theorem plainLeads (plain : IsPlain character) :
    Leads ⟨'"', false⟩ .plain [character] [character] .plain := by
  obtain ⟨isText, notMark, notBackslash⟩ := plain
  refine .single (fun isMark => absurd isMark notMark) ?_
  simp [step, stepPlain, notBackslash, isText]

theorem escapeLeads : Leads ⟨'"', false⟩ .plain ['\\'] [] .escape :=
  .single (fun isMark => absurd isMark (by decide)) rfl

theorem characterLeads {written : List Char} (text : CharacterText character written) :
    Leads ⟨'"', false⟩ .plain written [character] .plain := by
  cases text with
  | plain isPlain => exact plainLeads isPlain
  | letter inside =>
    obtain ⟨notShort, notLong, escaped⟩ := escapedOfLetter inside
    refine escapeLeads.append (.single (fun _ => rfl) ?_)
    simp [step, stepEscape, notShort, notLong, escaped]
  | code inside areDigits isCode =>
    obtain ⟨stepped, notZero⟩ := codeStep inside ⟨'"', false⟩
    have opened := escapeLeads.append (.single (fun _ => rfl) stepped)
    refine opened.append (digitsLead areDigits ?_ isCode)
    exact fun isEmpty => notZero (by simp [isEmpty])

theorem escapedLeads {text written : List Char} (escaped : EscapedText text written) :
    Leads ⟨'"', false⟩ .plain written text .plain := by
  induction escaped with
  | nil => exact .nil
  | cons isCharacter _ inductionHypothesis =>
    exact (characterLeads isCharacter).append inductionHypothesis

end Escapes

/-- A string on one line is read back from every way to write it. -/
theorem readsLine {value : String} {text : List Char} (written : StringText value text)
    (rest : List Char) : line? (text ++ rest) = some (value, rest) := by
  obtain ⟨inside, escaped, rfl⟩ := written
  have read : readLine ⟨'"', false⟩ .plain (inside ++ '"' :: rest) = some (value.toList, rest) := by
    rw [escapedLeads escaped, readsMark ⟨'"', false⟩]
    simp [withFront]
  simp [line?, read]

theorem literalLeads {text : List Char}
    (plain : ∀ character ∈ text, isTextCharacter character ∧ character ≠ '\'') :
    Leads ⟨'\'', false⟩ .plain text text .plain := by
  induction text with
  | nil => exact .nil
  | cons character text inductionHypothesis =>
    obtain ⟨⟨isText, notMark⟩, others⟩ := List.forall_mem_cons.mp plain
    have leads : Leads ⟨'\'', false⟩ .plain [character] [character] .plain := by
      refine .single (fun isMark => absurd isMark notMark) ?_
      simp [step, stepPlain, Kind.hasEscapes, isText]
    exact leads.append (inductionHypothesis others)

theorem readsLiteral {value : String}
    (plain : ∀ character ∈ value.toList, isTextCharacter character ∧ character ≠ '\'')
    (rest : List Char) : line? ('\'' :: (value.toList ++ '\'' :: rest)) = some (value, rest) := by
  have read : readLine ⟨'\'', false⟩ .plain (value.toList ++ '\'' :: rest) =
      some (value.toList, rest) := by
    rw [literalLeads plain, readsMark ⟨'\'', false⟩]
    simp [withFront]
  simp [line?, read]

/-- No character of a string is written with a quotation mark first. -/
theorem escapedFirst {text written : List Char} (escaped : EscapedText text written) :
    written.head? ≠ some '"' := by
  cases escaped with
  | nil => simp
  | cons isCharacter _ =>
    cases isCharacter with
    | plain isPlain => simpa using isPlain.2.1
    | letter _ => simp
    | code _ _ _ => simp

/-- A string on one line is no string of several lines unless another mark follows it. -/
theorem readsString {value : String} {text rest : List Char} (written : StringText value text)
    (apart : rest.head? ≠ some '"') : read? (text ++ rest) = some (value, rest) := by
  have line := readsLine written rest
  obtain ⟨inside, escaped, rfl⟩ := written
  have single :
      read? ('"' :: (inside ++ '"' :: rest)) = line? ('"' :: (inside ++ '"' :: rest)) := by
    have first := escapedFirst escaped
    -- Three marks in a row could only begin an empty string that another mark follows.
    match inside, rest with
    | [], [] => rfl
    | [], mark :: rest =>
      have notMark : mark ≠ '"' := by simpa using apart
      simp [read?, notMark]
    | character :: inside, rest =>
      have notMark : character ≠ '"' := by simpa using first
      cases behind : inside ++ '"' :: rest with
      | nil => simp at behind
      | cons third others => simp [read?, behind, notMark]
  simpa [single] using line

end QuotedText

end LintRepair.Toml
