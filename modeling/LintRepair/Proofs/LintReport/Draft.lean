/-
This file says what is known of a message or a file report behind some members of its object.
-/

import LintRepair.Proofs.LintReport.Grammar

namespace LintRepair.LintReport

theorem MessageField.ofKey {name : String} {field : MessageField} :
    MessageDraft.fieldOfKey? name = some field ↔ field.key = name := by
  constructor
  · intro known
    unfold MessageDraft.fieldOfKey? at known
    split at known <;> cases known <;> rfl
  · rintro rfl
    cases field <;> rfl

theorem ReportField.ofKey {name : String} {field : ReportField} :
    ReportDraft.fieldOfKey? name = some field ↔ field.key = name := by
  constructor
  · intro known
    unfold ReportDraft.fieldOfKey? at known
    split at known <;> cases known <;> rfl
  · rintro rfl
    cases field <;> rfl

/-- An optional value is known unless it is absent. -/
theorem optionalJoin {Value : Type} {value : Option Value} {known : Prop} [Decidable known]
    (needed : value ≠ none → known) : (if known then some value else none).join = value := by
  cases value with
  | none => split <;> rfl
  | some value => rw [if_pos (needed (by simp))]; rfl

namespace Message

variable {message : Message} {members : List (Option MessageField)} {field : MessageField}

/-- What is known of a message behind some members of its object. -/
def draft (message : Message) (members : List (Option MessageField)) : MessageDraft where
  listed := false
  field := members.getLast?.join
  severity := if some .severity ∈ members then some message.severity else none
  line := if some .line ∈ members then some message.line else none
  column := if some .column ∈ members then some message.column else none
  rule := if some .rule ∈ members then some message.rule else none
  text := if some .text ∈ members then some message.text else none

def scalar (message : Message) : MessageField → Scalar
  | .severity => .natural message.severity
  | .line => message.line.elim .null .natural
  | .column => message.column.elim .null .natural
  | .rule => message.rule.elim .null .text
  | .text => .text message.text

theorem draftHasField : (message.draft members).hasField field = decide (some field ∈ members) := by
  cases field <;> simp [draft, MessageDraft.hasField, apply_ite Option.isSome]

theorem draftNamed (unread : some field ∉ members) :
    (message.draft members).withKey field.key =
      .ok { message.draft members with field := some field } := by
  simp [MessageDraft.withKey, MessageField.ofKey.mpr rfl, draftHasField, unread]

theorem draftFurther {name : String} (further : ∀ field : MessageField, field.key ≠ name) :
    (message.draft members).withKey name = .ok (message.draft (members ++ [none])) := by
  have unknown : MessageDraft.fieldOfKey? name = none := by
    rw [Option.eq_none_iff_forall_ne_some]
    intro field known
    exact further field (MessageField.ofKey.mp known)
  simp [MessageDraft.withKey, unknown, draft]

theorem draftValue (members : List (Option MessageField)) (field : MessageField)
    (inRange : message.InRange) :
    { message.draft members with field := some field }.withValue field (message.scalar field) =
      .ok (message.draft (members ++ [some field])) := by
  have severity : message.severity < 256 := inRange.severity
  cases field with
  | severity => simp [MessageDraft.withValue, scalar, draft, severity]
  | line => cases line : message.line <;> simp [MessageDraft.withValue, scalar, draft, line]
  | column => cases column : message.column <;> simp [MessageDraft.withValue, scalar, draft, column]
  | rule => cases rule : message.rule <;> simp [MessageDraft.withValue, scalar, draft, rule]
  | text => simp [MessageDraft.withValue, scalar, draft]

theorem draftComplete (needed : ∀ field, message.Needed field → some field ∈ members) :
    (message.draft members).message = .ok message := by
  have severity : some .severity ∈ members := needed .severity trivial
  have text : some .text ∈ members := needed .text trivial
  have line : (message.draft members).line.join = message.line := optionalJoin (needed .line)
  have column : (message.draft members).column.join = message.column :=
    optionalJoin (needed .column)
  have rule : (message.draft members).rule.join = message.rule := optionalJoin (needed .rule)
  simp only [MessageDraft.message, line, column, rule]
  simp [draft, severity, text]

end Message

namespace FileReport

variable {report : FileReport} {members : List (Option ReportField)} {field : ReportField}

/-- What is known of a file report behind some members of its object. -/
def draft (report : FileReport) (members : List (Option ReportField)) : ReportDraft where
  listed := false
  field := members.getLast?.join
  path := if some .path ∈ members then some report.path.spelling else none
  messages := if some .messages ∈ members then some report.messages else none

theorem draftHasField : (report.draft members).hasField field = decide (some field ∈ members) := by
  cases field <;> simp [draft, ReportDraft.hasField, apply_ite Option.isSome]

theorem draftNamed (unread : some field ∉ members) :
    (report.draft members).withKey field.key =
      .ok { report.draft members with field := some field } := by
  simp [ReportDraft.withKey, ReportField.ofKey.mpr rfl, draftHasField, unread]

theorem draftFurther {name : String} (further : ∀ field : ReportField, field.key ≠ name) :
    (report.draft members).withKey name = .ok (report.draft (members ++ [none])) := by
  have unknown : ReportDraft.fieldOfKey? name = none := by
    rw [Option.eq_none_iff_forall_ne_some]
    intro field known
    exact further field (ReportField.ofKey.mp known)
  simp [ReportDraft.withKey, unknown, draft]

theorem draftComplete (needed : ∀ field, report.Needed field → some field ∈ members) :
    (report.draft members).report = .ok report := by
  have path : some .path ∈ members := needed .path trivial
  have messages : (report.draft members).messages.getD [] = report.messages := by
    by_cases empty : report.messages = []
    · by_cases read : some .messages ∈ members <;> simp [draft, read, empty]
    · simp [draft, needed .messages empty]
  simp [ReportDraft.report, messages]
  simp [draft, path]

end FileReport

end LintRepair.LintReport
