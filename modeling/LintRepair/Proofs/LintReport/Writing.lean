/-
This file shows that every report can be written.
-/

import LintRepair.Proofs.LintReport.Grammar

namespace LintRepair.LintReport

theorem blankNil : Blank [] := by
  simp [Blank]

instance : DecidablePred IsPlain := fun character =>
  inferInstanceAs (Decidable (' ' ≤ character ∧ character ≠ '"' ∧ character ≠ '\\'))

instance (value : Nat) : DecidablePred (HexadecimalDigit value) := fun digit =>
  inferInstanceAs (Decidable (value < 16 ∧
    (digit = value.digitChar ∨ digit = value.digitChar.toUpper)))

/-- A form without white space around it. -/
theorem Spaced.tight {Form : List Char → Prop} {text : List Char} (form : Form text) :
    Spaced Form text :=
  ⟨[], text, [], blankNil, form, blankNil, by simp⟩

section Strings

theorem controlWritten {value : Nat} (control : value < 32) :
    CodeEscape value ['\\', 'u', '0', '0', (value / 16).digitChar, (value % 16).digitChar] := by
  have whole : ((0 * 16 + 0) * 16 + value / 16) * 16 + value % 16 = value := by omega
  have isZero : HexadecimalDigit 0 '0' := ⟨by decide, .inl rfl⟩
  have isDigit (digit : Nat) (small : digit < 16) : HexadecimalDigit digit digit.digitChar :=
    ⟨small, .inl rfl⟩
  have escape := CodeEscape.digits isZero isZero (isDigit (value / 16) (by omega))
    (isDigit (value % 16) (by omega))
  rwa [whole] at escape

/-- Every character can be written, if need be by its code. -/
theorem characterWritten (character : Char) : ∃ written, CharacterText character written := by
  by_cases isPlain : IsPlain character
  · exact ⟨_, .plain isPlain⟩
  by_cases isQuote : character = '"'
  · subst isQuote
    exact ⟨_, .letter (show ('"', '"') ∈ letterEscapes by decide)⟩
  by_cases isBackslash : character = '\\'
  · subst isBackslash
    exact ⟨_, .letter (show ('\\', '\\') ∈ letterEscapes by decide)⟩
  have control : character.toNat < 32 := by
    have below : ¬ ' ' ≤ character := fun printable =>
      isPlain ⟨printable, isQuote, isBackslash⟩
    exact Char.not_le.mp below
  exact ⟨_, .code (controlWritten control)⟩

theorem escapedWritten (text : List Char) : ∃ written, EscapedText text written := by
  induction text with
  | nil => exact ⟨_, .nil⟩
  | cons character text inductionHypothesis =>
    obtain ⟨first, isFirst⟩ := characterWritten character
    obtain ⟨others, areOthers⟩ := inductionHypothesis
    exact ⟨_, .cons isFirst areOthers⟩

theorem plainEscaped {text : List Char} (plain : text.all fun character => IsPlain character) :
    EscapedText text text := by
  induction text with
  | nil => exact .nil
  | cons character text inductionHypothesis =>
    obtain ⟨isPlain, others⟩ := Bool.and_eq_true_iff.mp plain
    exact .cons (.plain (of_decide_eq_true isPlain)) (inductionHypothesis others)

/-- A string of plain characters stands between two quotation marks. -/
theorem plainWritten {value : String}
    (plain : value.toList.all fun character => IsPlain character) :
    StringText value ('"' :: value.toList ++ ['"']) :=
  ⟨value.toList, plainEscaped plain, rfl⟩

theorem stringWritten (value : String) : ∃ text, StringText value text := by
  obtain ⟨inside, escaped⟩ := escapedWritten value.toList
  exact ⟨_, inside, escaped, rfl⟩

end Strings

section Records

variable {Item Field Value : Type}

theorem numeralWritten (value : Nat) : ∃ text, NumeralText value text :=
  ⟨_, rfl⟩

theorem optionalWritten {Text : Value → List Char → Prop} (each : ∀ value, ∃ text, Text value text)
    (value : Option Value) : ∃ text, OptionalText Text value text := by
  cases value with
  | none => exact ⟨_, rfl⟩
  | some value => exact each value

theorem listedWritten {Text : Item → List Char → Prop} {items : List Item}
    (each : ∀ item ∈ items, ∃ text, Text item text) : ∃ text, Listed Text items text := by
  induction items with
  | nil => exact ⟨[], .none blankNil⟩
  | cons item items inductionHypothesis =>
    obtain ⟨first, others⟩ := List.forall_mem_cons.mp each
    obtain ⟨text, isItem⟩ := first
    by_cases last : items = []
    · subst last
      exact ⟨_, .last isItem⟩
    · obtain ⟨rest, listed⟩ := inductionHypothesis others
      exact ⟨_, .next isItem last listed⟩

theorem arrayWritten {Text : Item → List Char → Prop} {items : List Item}
    (each : ∀ item ∈ items, ∃ text, Text item text) : ∃ text, ArrayText Text items text := by
  have spaced : ∀ item ∈ items, ∃ text, Spaced (Text item) text := by
    intro item inside
    obtain ⟨text, isItem⟩ := each item inside
    exact ⟨text, .tight isItem⟩
  obtain ⟨inside, listed⟩ := listedWritten spaced
  exact ⟨_, inside, listed, rfl⟩

theorem objectWritten {key : Field → String} {Text : Field → List Char → Prop}
    {needed : Field → Prop} (fields : List Field) (once : fields.Nodup)
    (complete : ∀ field, field ∈ fields) (each : ∀ field, ∃ text, Text field text) :
    ∃ text, ObjectText key Text needed text := by
  have member : ∀ member ∈ fields.map some, ∃ text, MemberText key Text member text := by
    intro member inside
    obtain ⟨field, -, rfl⟩ := List.mem_map.mp inside
    obtain ⟨name, isName⟩ := stringWritten (key field)
    obtain ⟨value, isValue⟩ := each field
    exact ⟨_, .field (.tight isName) (.tight isValue)⟩
  obtain ⟨inside, listed⟩ := listedWritten member
  refine ⟨_, fields.map some, inside, listed, ?_, ?_, rfl⟩
  · simpa [List.reduceOption] using once
  · exact fun field _ => List.mem_map_of_mem (complete field)

end Records

theorem Message.memberWritten (message : Message) (field : MessageField) {value : List Char}
    (form : message.FieldText field value) :
    MemberText MessageField.key message.FieldText (some field)
      ('"' :: field.key.toList ++ '"' :: ':' :: value) := by
  have plain : field.key.toList.all fun character => IsPlain character := by
    cases field <;> decide
  simpa using MemberText.field (.tight (plainWritten plain)) (.tight form)

theorem FileReport.memberWritten (report : FileReport) (field : ReportField) {value : List Char}
    (form : report.FieldText field value) :
    MemberText ReportField.key report.FieldText (some field)
      ('"' :: field.key.toList ++ '"' :: ':' :: value) := by
  have plain : field.key.toList.all fun character => IsPlain character := by
    cases field <;> decide
  simpa using MemberText.field (.tight (plainWritten plain)) (.tight form)

theorem Message.canBeWritten (message : Message) : ∃ text, message.Written text := by
  refine objectWritten [.severity, .line, .column, .rule, .text] (by decide)
    (fun field => by cases field <;> decide) ?_
  intro field
  cases field with
  | severity => exact ⟨_, rfl⟩
  | line => exact optionalWritten numeralWritten message.line
  | column => exact optionalWritten numeralWritten message.column
  | rule => exact optionalWritten stringWritten message.rule
  | text => exact stringWritten message.text

theorem FileReport.canBeWritten (report : FileReport) : ∃ text, report.Written text := by
  refine objectWritten [.path, .messages] (by decide) (fun field => by cases field <;> decide) ?_
  intro field
  cases field with
  | path => exact stringWritten report.path.spelling
  | messages => exact arrayWritten fun message _ => message.canBeWritten

theorem FileReport.allCanBeWritten (reports : List FileReport) :
    ∃ text, AllWritten reports text := by
  obtain ⟨text, isArray⟩ := arrayWritten fun report (_ : report ∈ reports) => report.canBeWritten
  exact ⟨text, .tight isArray⟩

end LintRepair.LintReport
