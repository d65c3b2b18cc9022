/-
This file collects the fields of a file report and of a message. Both may be written as an object
with keys or as an array of the fields in their order.
-/

import LintRepair.LintReport.Number

namespace LintRepair.LintReport

/-- A JSON value that is neither an array nor an object. -/
inductive Scalar where
  | text (value : String)
  | natural (value : Nat)
  | otherNumber
  | boolean
  | null
deriving Repr, DecidableEq

inductive MessageField where
  | severity
  | line
  | column
  | rule
  | text
deriving Repr, DecidableEq

/-- A message with the fields read so far. For an object, `field` is the field that the last key
named; other keys name none. -/
structure MessageDraft where
  listed : Bool
  field : Option MessageField := none
  severity : Option Nat := none
  line : Option (Option Nat) := none
  column : Option (Option Nat) := none
  rule : Option (Option String) := none
  text : Option String := none
deriving Repr, DecidableEq

namespace MessageDraft

def hasField (draft : MessageDraft) : MessageField → Bool
  | .severity => draft.severity.isSome
  | .line => draft.line.isSome
  | .column => draft.column.isSome
  | .rule => draft.rule.isSome
  | .text => draft.text.isSome

def fieldOfKey? : String → Option MessageField
  | "severity" => some .severity
  | "line" => some .line
  | "column" => some .column
  | "ruleId" => some .rule
  | "message" => some .text
  | _ => none

/-- The field to which the next value belongs. -/
def nextField? (draft : MessageDraft) : Option MessageField :=
  if draft.listed then
    [.severity, .line, .column, .rule, .text].find? fun field => !draft.hasField field
  else draft.field

/-- A key names a field at most once. -/
def withKey (draft : MessageDraft) (key : String) : Except Failure MessageDraft :=
  let field := fieldOfKey? key
  if field.any draft.hasField then .error .mistyped else .ok { draft with field }

/-- The severity fits in eight bits. Line, column and rule may be null. -/
def withValue (draft : MessageDraft) (field : MessageField) (value : Scalar) :
    Except Failure MessageDraft :=
  match field, value with
  | .severity, .natural level =>
    if level < 256 then .ok { draft with severity := some level } else .error .mistyped
  | .line, .natural line => .ok { draft with line := some (some line) }
  | .line, .null => .ok { draft with line := some none }
  | .column, .natural column => .ok { draft with column := some (some column) }
  | .column, .null => .ok { draft with column := some none }
  | .rule, .text rule => .ok { draft with rule := some (some rule) }
  | .rule, .null => .ok { draft with rule := some none }
  | .text, .text text => .ok { draft with text := some text }
  | _, _ => .error .mistyped

/-- The array form needs all fields. In the object form line, column and rule may be missing. -/
def message (draft : MessageDraft) : Except Failure Message :=
  if draft.listed && draft.nextField?.isSome then .error .mistyped
  else
    match draft.severity, draft.text with
    | some severity, some text =>
      .ok ⟨severity, draft.line.join, draft.column.join, draft.rule.join, text⟩
    | _, _ => .error .mistyped

end MessageDraft

inductive ReportField where
  | path
  | messages
deriving Repr, DecidableEq

/-- A file report with the fields read so far; `field` is as in a message. -/
structure ReportDraft where
  listed : Bool
  field : Option ReportField := none
  path : Option String := none
  messages : Option (List Message) := none
deriving Repr, DecidableEq

namespace ReportDraft

def hasField (draft : ReportDraft) : ReportField → Bool
  | .path => draft.path.isSome
  | .messages => draft.messages.isSome

def fieldOfKey? : String → Option ReportField
  | "filePath" => some .path
  | "messages" => some .messages
  | _ => none

def nextField? (draft : ReportDraft) : Option ReportField :=
  if draft.listed then [.path, .messages].find? fun field => !draft.hasField field
  else draft.field

def withKey (draft : ReportDraft) (key : String) : Except Failure ReportDraft :=
  let field := fieldOfKey? key
  if field.any draft.hasField then .error .mistyped else .ok { draft with field }

def withPath (draft : ReportDraft) (value : Scalar) : Except Failure ReportDraft :=
  match value with
  | .text path => .ok { draft with path := some path }
  | _ => .error .mistyped

/-- The path is needed. Missing messages are no messages. -/
def report (draft : ReportDraft) : Except Failure FileReport :=
  match draft.path with
  | some path => .ok ⟨⟨path⟩, draft.messages.getD []⟩
  | none => .error .mistyped

end ReportDraft

end LintRepair.LintReport
