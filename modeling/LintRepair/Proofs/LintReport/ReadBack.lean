/-
This file shows that a report is read back from every way to write it.
-/

import LintRepair.Proofs.LintReport.Draft
import LintRepair.Proofs.LintReport.Sequence
import LintRepair.Proofs.LintReport.Writing

namespace LintRepair.LintReport

namespace State

theorem readsOptionalNumeral {place : Place} {ignored : List Bracket} {phase : Phase}
    {after : State} {value : Option Nat} {text : List Char}
    (form : OptionalText NumeralText value text)
    (inRange : ∀ number ∈ value, number < Text.wordLimit) (before : phase.BeforeValue)
    (accepts : acceptScalar ⟨place, ignored, .value⟩ (value.elim .null .natural) = .ok after)
    (afterBetween : after.phase.IsBetween) : Reads ⟨place, ignored, phase⟩ text after := by
  cases value with
  | none =>
    rw [show text = "null".toList from form]
    exact readsNull before accepts
  | some value => exact readsNumeral form (inRange value rfl) before accepts afterBetween

end State

namespace Message

variable {message : Message} {members : List (Option MessageField)} {field : MessageField}
  {done : List FileReport} {draft : ReportDraft} {earlier : List Message}

open State

/-- The value of a field is read where the field has been named. -/
theorem readsField (inRange : message.InRange) {text : List Char}
    (form : message.FieldText field text) :
    Reads ⟨.message done draft earlier { message.draft members with field := some field }, [],
        .value⟩ text
      ⟨.message done draft earlier (message.draft (members ++ [some field])), [], .separator⟩ := by
  have accepts : acceptScalar ⟨.message done draft earlier
      { message.draft members with field := some field }, [], .value⟩ (message.scalar field) =
      .ok ⟨.message done draft earlier (message.draft (members ++ [some field])), [],
        .separator⟩ := by
    have value := draftValue members field inRange
    have next : { message.draft members with field := some field }.nextField? = some field := rfl
    simp [acceptScalar, State.isKept, State.expected, Place.expected, next, Place.withValue, value,
      Except.map, afterValue]
  cases field with
  | severity =>
    have fits : message.severity < Text.wordLimit :=
      lt_trans inRange.severity (by decide)
    exact readsNumeral form fits (.inl rfl) accepts trivial
  | line => exact readsOptionalNumeral form inRange.line (.inl rfl) accepts trivial
  | column => exact readsOptionalNumeral form inRange.column (.inl rfl) accepts trivial
  | rule =>
    cases rule : message.rule with
    | none =>
      rw [FieldText, rule] at form
      rw [scalar, rule] at accepts
      rw [show text = "null".toList from form]
      exact readsNull (.inl rfl) accepts
    | some name =>
      rw [FieldText, rule] at form
      rw [scalar, rule] at accepts
      exact readsString form (.inl rfl) rfl accepts
  | text => exact readsString form (.inl rfl) rfl accepts

theorem readsObject (inRange : message.InRange) :
    ReadsObject MessageField.key message.FieldText message.Needed
      (fun members => .message done draft earlier (message.draft members))
      ⟨.messages done draft (earlier ++ [message]), [], .separator⟩ := by
  refine ⟨fun _ => rfl, ?field, ?further, ?passes, ?closes⟩
  case field =>
    intro members field unread
    have named : Place.withKey field.key (.message done draft earlier (message.draft members)) =
        .ok (.message done draft earlier { message.draft members with field := some field }) := by
      rw [Place.withKey, draftNamed unread]
      rfl
    exact ⟨_, named, fun text form => readsField inRange form⟩
  case further =>
    intro members name further
    rw [Place.withKey, draftFurther further]
    rfl
  case passes =>
    intro members
    have next : (message.draft (members ++ [none])).nextField? = none := by
      simp [MessageDraft.nextField?, Message.draft]
    refine ⟨?_, fun _ => Place.noConfusion⟩
    simp [State.isKept, State.expected, Place.expected, next]
  case closes =>
    intro members needed phase last
    have isObject : (message.draft members).listed = false := rfl
    have closed : closeBracket ⟨.message done draft earlier (message.draft members), [], phase⟩
        .curly = .ok ⟨.messages done draft (earlier ++ [message]), [], .separator⟩ := by
      simp [closeBracket, Place.bracket, isObject, Place.close, draftComplete needed, Except.map,
        afterValue]
    rcases last with rfl | rfl <;> exact closed

/-- A message is read as it is, from each way to write it. -/
theorem readsWritten (inRange : message.InRange) {text : List Char} (written : message.Written text)
    {phase : Phase} (before : phase.BeforeValue) :
    Reads ⟨.messages done draft earlier, [], phase⟩ text
      ⟨.messages done draft (earlier ++ [message]), [], .separator⟩ := by
  have opens : feed ⟨.messages done draft earlier, [], phase⟩ '{' =
      .ok ⟨.message done draft earlier (message.draft []), [], .keyOrEnd⟩ := by
    rw [feedValue before rfl (by decide)]
    rfl
  exact (readsObject inRange).reads opens written

end Message

namespace FileReport

variable {report : FileReport} {members : List (Option ReportField)} {field : ReportField}
  {done : List FileReport}

open State

/-- The value of a field is read where the field has been named. -/
theorem readsField (inRange : ∀ message ∈ report.messages, message.InRange) {text : List Char}
    (form : report.FieldText field text) :
    Reads ⟨.report done { report.draft members with field := some field }, [], .value⟩ text
      ⟨.report done (report.draft (members ++ [some field])), [], .separator⟩ := by
  cases field with
  | path =>
    have filled : { report.draft members with
        field := some .path, path := some report.path.spelling } =
        report.draft (members ++ [some .path]) := by
      simp [draft]
    have accepts : acceptScalar ⟨.report done { report.draft members with field := some .path },
        [], .value⟩ (.text report.path.spelling) =
        .ok ⟨.report done (report.draft (members ++ [some .path])), [], .separator⟩ := by
      rw [← filled]
      rfl
    exact readsString form (.inl rfl) rfl accepts
  | messages =>
    have closes (phase : Phase) (last : phase = .itemOrEnd ∨ phase = .separator) :
        feed ⟨.messages done { report.draft members with field := some .messages }
          report.messages, [], phase⟩ ']' =
          .ok ⟨.report done (report.draft (members ++ [some .messages])), [], .separator⟩ := by
      have filled : { report.draft members with
          field := some .messages, messages := some report.messages } =
          report.draft (members ++ [some .messages]) := by
        simp [draft]
      rw [← filled]
      rcases last with rfl | rfl <;> rfl
    intro next rest _
    refine readsArray (.messages done { report.draft members with field := some .messages })
      (fun _ => rfl) ?_ rfl closes form _
    intro earlier message isMessage text phase written before
    exact Message.readsWritten (inRange message isMessage) written before

theorem readsObject (inRange : ∀ message ∈ report.messages, message.InRange) :
    ReadsObject ReportField.key report.FieldText report.Needed
      (fun members => .report done (report.draft members))
      ⟨.reports (done ++ [report]), [], .separator⟩ := by
  refine ⟨fun _ => rfl, ?field, ?further, ?passes, ?closes⟩
  case field =>
    intro members field unread
    have named : Place.withKey field.key (.report done (report.draft members)) =
        .ok (.report done { report.draft members with field := some field }) := by
      rw [Place.withKey, draftNamed unread]
      rfl
    exact ⟨_, named, fun text form => readsField inRange form⟩
  case further =>
    intro members name further
    rw [Place.withKey, draftFurther further]
    rfl
  case passes =>
    intro members
    have next : (report.draft (members ++ [none])).nextField? = none := by
      simp [ReportDraft.nextField?, FileReport.draft]
    refine ⟨?_, fun _ => Place.noConfusion⟩
    simp [State.isKept, State.expected, Place.expected, next]
  case closes =>
    intro members needed phase last
    have isObject : (report.draft members).listed = false := rfl
    have closed : closeBracket ⟨.report done (report.draft members), [], phase⟩ .curly =
        .ok ⟨.reports (done ++ [report]), [], .separator⟩ := by
      simp [closeBracket, Place.bracket, isObject, Place.close, draftComplete needed, Except.map,
        afterValue]
    rcases last with rfl | rfl <;> exact closed

/-- A file report is read as it is, from each way to write it. -/
theorem readsWritten (inRange : ∀ message ∈ report.messages, message.InRange) {text : List Char}
    (written : report.Written text) {phase : Phase} (before : phase.BeforeValue) :
    Reads ⟨.reports done, [], phase⟩ text ⟨.reports (done ++ [report]), [], .separator⟩ := by
  have opens : feed ⟨.reports done, [], phase⟩ '{' =
      .ok ⟨.report done (report.draft []), [], .keyOrEnd⟩ := by
    rw [feedValue before rfl (by decide)]
    rfl
  exact (readsObject inRange).reads opens written

end FileReport

/-- Reports are read back from each text that stands for them. -/
theorem readWritten {reports : List FileReport}
    (inRange : ∀ report ∈ reports, ∀ message ∈ report.messages, message.InRange)
    {text : List Char} (written : FileReport.AllWritten reports text) :
    read text = .ok reports := by
  obtain ⟨before, inside, behind, blankBefore, form, blankBehind, rfl⟩ := written
  have closes (phase : Phase) (last : phase = .itemOrEnd ∨ phase = .separator) :
      State.feed ⟨.reports reports, [], phase⟩ ']' = .ok ⟨.complete reports, [], .finished⟩ := by
    rcases last with rfl | rfl <;> rfl
  have startBetween : State.start.phase.IsBetween := trivial
  have whole : State.start.feedAll (before ++ inside ++ behind) =
      .ok ⟨.complete reports, [], .finished⟩ := by
    rw [List.append_assoc, State.feedBlank startBetween blankBefore,
      State.readsArray .reports (fun _ => rfl) ?_ rfl closes form]
    · have between : (⟨.complete reports, [], .finished⟩ : State).phase.IsBetween := trivial
      have ends := State.feedBlank between blankBehind []
      rwa [List.append_nil] at ends
    · intro done report isReport text phase written before
      exact report.readsWritten (inRange report isReport) written before
  rw [read, whole]
  rfl

/-- Each list of reports in range is read from some text. -/
theorem readEach (reports : List FileReport)
    (inRange : ∀ report ∈ reports, ∀ message ∈ report.messages, message.InRange) :
    ∃ text, read text = .ok reports := by
  obtain ⟨text, written⟩ := FileReport.allCanBeWritten reports
  exact ⟨text, readWritten inRange written⟩

/-- A text stands for no two lists of reports. -/
theorem writtenOnce {reports others : List FileReport}
    (inRange : ∀ report ∈ reports, ∀ message ∈ report.messages, message.InRange)
    (othersInRange : ∀ report ∈ others, ∀ message ∈ report.messages, message.InRange)
    {text : List Char} (written : FileReport.AllWritten reports text)
    (othersWritten : FileReport.AllWritten others text) : reports = others := by
  have same := (readWritten inRange written).symm.trans (readWritten othersInRange othersWritten)
  exact Except.ok.inj same

/-- The diagnostics of a report are its messages of the error severity, in their order. -/
theorem errorDiagnostics (report : FileReport) :
    report.diagnostics =
      (report.messages.filter fun message => message.severity = 2).map fun message => {
        file := report.path
        line := message.line.getD 0
        column := message.column
        rule := message.rule.getD ""
        message := message.text
        symbol := none } := by
  rw [FileReport.diagnostics, ← List.filterMap_eq_map, List.filterMap_filter]
  congr 1
  funext message
  by_cases isError : message.severity = 2
  · simp [Message.diagnostic?, Severity.ofLevel, isError]
  · simp [Message.diagnostic?, Severity.ofLevel, isError]

/-- From each text that stands for some reports the diagnostics of these reports are read. -/
theorem diagnosticsReadBack {reports : List FileReport}
    (inRange : ∀ report ∈ reports, ∀ message ∈ report.messages, message.InRange)
    {text : List Char} (written : FileReport.AllWritten reports text) :
    diagnostics text = .ok (reports.flatMap fun report =>
      (report.messages.filter fun message => message.severity = 2).map fun message => {
        file := report.path
        line := message.line.getD 0
        column := message.column
        rule := message.rule.getD ""
        message := message.text
        symbol := none }) := by
  rw [diagnostics, readWritten inRange written, Except.map, ← funext errorDiagnostics]

/-- A warning is left out, and an emoji in an error is read from its two surrogates. -/
theorem emojiReadBack :
    diagnostics ("[\x7b\"note\":[null],\"messages\":[\x7b\"severity\":1,\"message\":\"\"\x7d," ++
      "\x7b\"message\":\"\\ud83d\\uDE00\",\"line\":null,\"severity\":2\x7d]," ++
      "\"filePath\":\"a.ts\"\x7d]").toList =
      .ok [⟨⟨"a.ts"⟩, 0, none, "", "😀", none⟩] := by
  have emoji : StringText "😀" "\"\\ud83d\\uDE00\"".toList := by
    have leading : CodeEscape (0xD800 + 0x3D) ['\\', 'u', 'd', '8', '3', 'd'] :=
      @CodeEscape.digits 13 8 3 13 _ _ _ _ (by decide) (by decide) (by decide) (by decide)
    have trailing : CodeEscape (0xDC00 + 0x200) ['\\', 'u', 'D', 'E', '0', '0'] :=
      @CodeEscape.digits 13 14 0 0 _ _ _ _ (by decide) (by decide) (by decide) (by decide)
    exact ⟨_, .cons (.pair leading trailing (by decide) (by decide) (by decide)) .nil, rfl⟩
  have warning : Message.Written ⟨1, none, none, none, ""⟩ _ :=
    ⟨_, _, .next (Message.memberWritten _ .severity rfl) (List.cons_ne_nil _ _)
      (.last (Message.memberWritten _ .text (plainWritten (by decide)))),
      by decide, fun field needed => (by cases field <;> first | decide | cases needed rfl), rfl⟩
  have error : Message.Written ⟨2, none, none, none, "😀"⟩ _ :=
    ⟨_, _, .next (Message.memberWritten _ .text emoji) (List.cons_ne_nil _ _)
      (.next (Message.memberWritten _ .line rfl) (List.cons_ne_nil _ _)
        (.last (Message.memberWritten _ .severity rfl))),
      by decide, fun field needed => (by cases field <;> first | decide | cases needed rfl), rfl⟩
  have note : MemberText ReportField.key
      (FileReport.FieldText ⟨⟨"a.ts"⟩, [⟨1, none, none, none, ""⟩, ⟨2, none, none, none, "😀"⟩]⟩)
      none ("\"note\"".toList ++ ':' :: "[null]".toList) := by
    have name : StringText "note" "\"note\"".toList := plainWritten (by decide)
    have blank := blankNil
    have null : Json .element ([] ++ "null".toList ++ []) :=
      .element blank (.literal (by decide)) blank
    exact .further (fun field => by cases field <;> decide) (.tight name)
      (.element blank (.array (.lastElement null)) blank)
  have report := Listed.next note (List.cons_ne_nil _ _)
    (.next (FileReport.memberWritten _ .messages ⟨_, .next (.tight warning) (List.cons_ne_nil _ _)
      (.last (.tight error)), rfl⟩) (List.cons_ne_nil _ _)
    (.last (FileReport.memberWritten _ .path (plainWritten (by decide)))))
  have written : FileReport.AllWritten [⟨⟨"a.ts"⟩, [⟨1, none, none, none, ""⟩,
      ⟨2, none, none, none, "😀"⟩]⟩] _ :=
    .tight ⟨_, .last (.tight ⟨_, _, report, by decide,
      fun field _ => (by cases field <;> decide), rfl⟩), rfl⟩
  have readBack := diagnosticsReadBack ?_ written
  · refine .trans (congrArg diagnostics ?_) readBack
    decide +kernel
  · intro report isReport message isMessage
    cases List.mem_singleton.mp isReport
    simp only [List.mem_cons, List.not_mem_nil, or_false] at isMessage
    rcases isMessage with rfl | rfl <;> exact ⟨by decide, by simp, by simp⟩

end LintRepair.LintReport
