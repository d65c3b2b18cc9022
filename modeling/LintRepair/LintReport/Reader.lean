/-
This file reads a report from left to right, one character at a time. The state after a part of the
text knows everything about that part, so a text that stops too early is told from a wrong one.
-/

import LintRepair.LintReport.Draft

namespace LintRepair.LintReport

/-- The arrays and objects of the report that are open, with what they hold so far. -/
inductive Place where
  | outside
  | reports (reports : List FileReport)
  | report (reports : List FileReport) (draft : ReportDraft)
  | messages (reports : List FileReport) (draft : ReportDraft) (messages : List Message)
  | message (reports : List FileReport) (draft : ReportDraft) (messages : List Message)
      (current : MessageDraft)
  | complete (reports : List FileReport)
deriving Repr, DecidableEq

inductive Bracket where
  | square
  | curly
deriving Repr, DecidableEq

/-- What the next character belongs to. -/
inductive Phase where
  | value
  | itemOrEnd
  | keyOrEnd
  | key
  | colon
  | separator
  | finished
  | string (asKey : Bool) (quoted : QuotedText)
  | number (number : Number)
  | literal (rest : List Char) (value : Scalar)
deriving Repr, DecidableEq

/-- The brackets in `ignored` are open inside a value that is passed over, the innermost first. -/
structure State where
  place : Place
  ignored : List Bracket
  phase : Phase
deriving Repr, DecidableEq

/-- The form that the next value must have. -/
inductive Expected where
  | reports
  | report
  | messages
  | message
  | path
  | field (field : MessageField)
  | anything
deriving Repr, DecidableEq

namespace Place

def expected : Place → Expected
  | outside => .reports
  | reports _ => .report
  | report _ draft =>
    match draft.nextField? with
    | some .path => .path
    | some .messages => .messages
    | none => .anything
  | messages _ _ _ => .message
  | message _ _ _ current =>
    match current.nextField? with
    | some field => .field field
    | none => .anything
  | complete _ => .anything

/-- The bracket that closes the innermost open value. -/
def bracket : Place → Bracket
  | report _ draft => if draft.listed then .square else .curly
  | message _ _ _ current => if current.listed then .square else .curly
  | outside | reports _ | messages _ _ _ | complete _ => .square

/-- Whether a comma may follow. An array of fields ends with its last field. -/
def mayContinue : Place → Bool
  | report _ draft => !draft.listed || draft.nextField?.isSome
  | message _ _ _ current => !current.listed || current.nextField?.isSome
  | outside | reports _ | messages _ _ _ | complete _ => true

/-- An array is opened where an array, or a record in its array form, is expected. -/
def openSquare (place : Place) : Except Failure Place :=
  match place, place.expected with
  | outside, .reports => .ok (reports [])
  | reports done, .report => .ok (report done { listed := true })
  | report done draft, .messages => .ok (messages done draft [])
  | messages done draft earlier, .message => .ok (message done draft earlier { listed := true })
  | _, _ => .error .mistyped

def openCurly (place : Place) : Except Failure Place :=
  match place, place.expected with
  | reports done, .report => .ok (report done { listed := false })
  | messages done draft earlier, .message => .ok (message done draft earlier { listed := false })
  | _, _ => .error .mistyped

/-- The innermost open value is complete and belongs to the value around it. -/
def close : Place → Except Failure Place
  | reports done => .ok (complete done)
  | report done draft => draft.report.map fun report => reports (done ++ [report])
  | messages done draft listed => .ok (report done { draft with messages := some listed })
  | message done draft earlier current =>
    current.message.map fun message => messages done draft (earlier ++ [message])
  | outside | complete _ => .error .malformed

def withKey (key : String) : Place → Except Failure Place
  | report done draft => (draft.withKey key).map (report done)
  | message done draft earlier current =>
    (current.withKey key).map (message done draft earlier)
  | outside | reports _ | messages _ _ _ | complete _ => .error .malformed

/-- A value that is no array and no object takes its place in the innermost open record. -/
def withValue (value : Scalar) (place : Place) : Except Failure Place :=
  match place, place.expected with
  | report done draft, .path => (draft.withPath value).map (report done)
  | message done draft earlier current, .field field =>
    (current.withValue field value).map (message done draft earlier)
  | _, .anything => .ok place
  | _, _ => .error .mistyped

end Place

/-- White space between the parts of a report. -/
def isSpace (character : Char) : Bool :=
  character == ' ' || character == '\n' || character == '\t' || character == '\r'

namespace State

def start : State :=
  ⟨.outside, [], .value⟩

/-- A value that the report has no use for is passed over. -/
def expected (state : State) : Expected :=
  if state.ignored.isEmpty then state.place.expected else .anything

def isKept (state : State) : Bool :=
  state.expected != .anything

/-- After a value comes a comma or the end of what is around it. -/
def afterValue (state : State) (place : Place) : State :=
  { state with
    place
    phase := match place with
      | .complete _ => .finished
      | _ => .separator }

def acceptScalar (state : State) (value : Scalar) : Except Failure State :=
  if state.isKept then (state.place.withValue value).map state.afterValue
  else .ok (state.afterValue state.place)

/-- A number outside the range of floating-point numbers is no number where its value counts. -/
def acceptNumber (state : State) (number : Number) : Except Failure State :=
  match number.natural? with
  | some value => state.acceptScalar (.natural value)
  | none =>
    if state.isKept && number.isOutOfRange then .error .malformed
    else state.acceptScalar .otherNumber

def acceptKey (state : State) (key : String) : Except Failure State :=
  if state.ignored.isEmpty then
    (state.place.withKey key).map fun place => { state with place, phase := .colon }
  else .ok { state with phase := .colon }

/-- The first character of a value. -/
def beginValue (state : State) (character : Char) : Except Failure State :=
  match character with
  | '[' =>
    if state.isKept then
      state.place.openSquare.map fun place => { state with place, phase := .itemOrEnd }
    else .ok { state with ignored := .square :: state.ignored, phase := .itemOrEnd }
  | '{' =>
    if state.isKept then
      state.place.openCurly.map fun place => { state with place, phase := .keyOrEnd }
    else .ok { state with ignored := .curly :: state.ignored, phase := .keyOrEnd }
  | '"' => .ok { state with phase := .string false QuotedText.start }
  | 't' => .ok { state with phase := .literal "rue".toList .boolean }
  | 'f' => .ok { state with phase := .literal "alse".toList .boolean }
  | 'n' => .ok { state with phase := .literal "ull".toList .null }
  | _ =>
    match Number.start? character with
    | some number => .ok { state with phase := .number number }
    | none => .error .malformed

/-- The closing bracket of the innermost open value. -/
def closeBracket (state : State) (bracket : Bracket) : Except Failure State :=
  match state.ignored with
  | innermost :: around =>
    if innermost = bracket then
      .ok (State.afterValue { state with ignored := around } state.place)
    else .error .malformed
  | [] =>
    if state.place.bracket = bracket then state.place.close.map state.afterValue
    else .error .malformed

/-- A comma; what follows depends on the bracket around it. -/
def continueBehindComma (state : State) : Except Failure State :=
  match state.ignored with
  | .square :: _ => .ok { state with phase := .value }
  | .curly :: _ => .ok { state with phase := .key }
  | [] =>
    if state.place.mayContinue then
      match state.place.bracket with
      | .square => .ok { state with phase := .value }
      | .curly => .ok { state with phase := .key }
    else .error .malformed

/-- A character that is not part of a token begun before it. -/
def feedBetween (state : State) (character : Char) : Except Failure State :=
  if isSpace character then .ok state
  else
    match state.phase, character with
    | .value, _ => state.beginValue character
    | .itemOrEnd, ']' => state.closeBracket .square
    | .itemOrEnd, _ => state.beginValue character
    | .keyOrEnd, '}' => state.closeBracket .curly
    | .keyOrEnd, '"' => .ok { state with phase := .string true QuotedText.start }
    | .key, '"' => .ok { state with phase := .string true QuotedText.start }
    | .colon, ':' => .ok { state with phase := .value }
    | .separator, ',' => state.continueBehindComma
    | .separator, ']' => state.closeBracket .square
    | .separator, '}' => state.closeBracket .curly
    | _, _ => .error .malformed

/-- Keys of a record that is read are kept; keys inside a value that is passed over are not. -/
def keepsString (state : State) (asKey : Bool) : Bool :=
  if asKey then state.ignored.isEmpty else state.isKept

/-- One character. Behind a number it is read again, since it is not part of the number. -/
def feed (state : State) (character : Char) : Except Failure State :=
  match state.phase with
  | .string asKey quoted => do
    match ← quoted.step (state.keepsString asKey) character with
    | .more quoted => return { state with phase := .string asKey quoted }
    | .complete =>
      if asKey then state.acceptKey quoted.text else state.acceptScalar (.text quoted.text)
  | .number number => do
    match ← number.step character with
    | .more number => return { state with phase := .number number }
    | .complete => (← state.acceptNumber number).feedBetween character
  | .literal rest value =>
    match rest with
    | [] => .error .malformed
    | expected :: rest =>
      if character = expected then
        if rest.isEmpty then state.acceptScalar value
        else .ok { state with phase := .literal rest value }
      else .error .malformed
  | _ => state.feedBetween character

def feedAll (state : State) : List Char → Except Failure State
  | [] => .ok state
  | character :: text => do (← state.feed character).feedAll text

/-- The reports of a text that ends here. A number at the end is judged before the end is. -/
def finish (state : State) : Except Failure (List FileReport) :=
  match state.phase, state.place with
  | .finished, .complete reports => .ok reports
  | .number number, _ =>
    if number.isComplete then do
      let _ ← state.acceptNumber number
      .error .truncated
    else if state.isKept then .error .truncated
    else .error .malformed
  | _, _ => .error .truncated

end State

/-- The reports that a text holds, or the first reason from the left why it is no report. -/
def read (text : List Char) : Except Failure (List FileReport) := do
  (← State.start.feedAll text).finish

/-- The errors of a report, in its order. -/
def diagnostics (text : List Char) : Except Failure (List Diagnostic) :=
  (read text).map fun reports => reports.flatMap FileReport.diagnostics

end LintRepair.LintReport
