/-
This file shows that a report that stops too early is not read as a shorter one.
-/

import LintRepair.Proofs.LintReport.Quotation
import LintRepair.Proofs.Text.LossyDecoding
import LintRepair.Repair.LintCommand
import Mathlib.Data.List.Induction

namespace LintRepair.LintReport

/-- Cutting a text in two cuts a number in two that stands outside of strings. -/
def CutsNumber (cut rest : List Char) : Prop :=
  ∃ before first second behind, cut = before ++ first ∧ rest = second ++ behind ∧
    first ≠ [] ∧ second ≠ [] ∧ AnyNumber (first ++ second) ∧ quotation before = .outside

/-- A number is cut between two of its characters. -/
theorem CutsNumber.characters {cut rest : List Char} (cuts : CutsNumber cut rest) :
    (∃ before last, cut = before ++ [last] ∧ IsNumberCharacter last) ∧
      ∃ next behind, rest = next :: behind ∧ IsNumberCharacter next := by
  obtain ⟨before, first, second, behind, rfl, rfl, firstFull, secondFull, isNumber, -⟩ := cuts
  have characters := Number.anyCharacters isNumber
  constructor
  · refine ⟨before ++ first.dropLast, first.getLast firstFull, ?_, ?_⟩
    · rw [List.append_assoc, List.dropLast_append_getLast]
    · exact characters _ (List.mem_append_left _ (List.getLast_mem firstFull))
  · obtain ⟨next, others, rfl⟩ := List.exists_cons_of_ne_nil secondFull
    exact ⟨next, others ++ behind, rfl, characters next (by simp)⟩

namespace State

variable {state final : State} {text rest : List Char}

theorem feedAllSplit (fed : state.feedAll (text ++ rest) = .ok final) :
    ∃ between, state.feedAll text = .ok between ∧ between.feedAll rest = .ok final := by
  rw [feedAllAppend] at fed
  exact bindOk.mp fed

/-- One character more at the end of a text. -/
theorem feedAllSnoc {character : Char} (fed : state.feedAll (text ++ [character]) = .ok final) :
    ∃ between, state.feedAll text = .ok between ∧ between.feed character = .ok final := by
  obtain ⟨between, before, fed⟩ := feedAllSplit fed
  obtain ⟨last, fedLast, same⟩ := bindOk.mp fed
  cases same
  exact ⟨between, before, fedLast⟩

/-- What the reader knows behind a text agrees with the quotation marks in it. -/
theorem reached (fed : start.feedAll text = .ok final) :
    final.Settled ∧ final.phase.Matches (quotation text) := by
  induction text using List.reverseRecOn generalizing final with
  | nil =>
    cases fed
    exact ⟨.inl fun _ => Place.noConfusion, rfl⟩
  | append_singleton text character inductionHypothesis =>
    obtain ⟨between, before, fed⟩ := feedAllSnoc fed
    obtain ⟨settled, places⟩ := inductionHypothesis before
    obtain ⟨step, settledAfter⟩ := feedStep settled fed
    exact ⟨settledAfter, quotationAppend text character ▸ step.matches places⟩

theorem reachedStep {character : Char} (fed : start.feedAll (text ++ [character]) = .ok final) :
    ∃ between, start.feedAll text = .ok between ∧
      Phase.Step character between.phase final.phase := by
  obtain ⟨between, before, fed⟩ := feedAllSnoc fed
  exact ⟨between, before, (feedStep (reached before).1 fed).1⟩

/-- A complete report ends with its closing bracket and white space. -/
theorem closingBracket (fed : start.feedAll text = .ok final) (finished : final.phase = .finished) :
    ∃ body blank, text = body ++ ']' :: blank ∧ Blank blank := by
  induction text using List.reverseRecOn generalizing final with
  | nil =>
    cases fed
    cases finished
  | append_singleton text character inductionHypothesis =>
    obtain ⟨between, before, step⟩ := reachedStep fed
    rcases step.finishes finished with ⟨finishedBefore, space⟩ | closing
    · obtain ⟨body, blank, rfl, isBlank⟩ := inductionHypothesis before finishedBefore
      refine ⟨body, blank ++ [character], by simp, ?_⟩
      intro each inside
      rcases List.mem_append.mp inside with earlier | last
      · exact isBlank each earlier
      · rw [List.mem_singleton.mp last]
        simpa [isSpace, or_assoc] using space
    · exact ⟨text, [], by rw [closing], by simp [Blank]⟩

/-- A number that is open at the end of a text has begun within the text, outside of strings. -/
theorem numberBegan (fed : start.feedAll text = .ok final) {number : Number}
    (inNumber : final.phase = .number number) :
    ∃ before token, text = before ++ token ∧ quotation before = .outside ∧
      Number.Reads token number := by
  induction text using List.reverseRecOn generalizing final number with
  | nil =>
    cases fed
    cases inNumber
  | append_singleton text character inductionHypothesis =>
    obtain ⟨between, before, step⟩ := reachedStep fed
    rcases step.intoNumber inNumber with ⟨beforeValue, starts⟩ | ⟨earlier, inEarlier, stepped⟩
    · have outside : quotation text = .outside :=
        beforeValue.isBetween.matches.mp (reached before).2
      exact ⟨text, [character], rfl, outside, character, [], number, rfl, starts, rfl⟩
    · obtain ⟨earlierText, token, rfl, outside, reads⟩ := inductionHypothesis before inEarlier
      exact ⟨earlierText, token ++ [character], by simp, outside,
        reads.append ⟨number, stepped, rfl⟩⟩

/-- A number that is open before the end of a report is read on to its own end, and is accepted. -/
theorem numberEnds {number : Number} (inNumber : state.phase = .number number)
    (fed : state.feedAll rest = .ok final) (finished : final.phase = .finished) :
    ∃ second behind ended, rest = second ++ behind ∧ Leads Number.step number second ended ∧
      ended.isComplete ∧ (second = [] → ∃ accepted, state.acceptNumber number = .ok accepted) := by
  induction rest generalizing state number with
  | nil =>
    cases fed
    rw [inNumber] at finished
    cases finished
  | cons character rest inductionHypothesis =>
    obtain ⟨next, fedFirst, fed⟩ := bindOk.mp fed
    simp only [feed, inNumber] at fedFirst
    obtain ⟨progress, stepped, continues⟩ := bindOk.mp fedFirst
    cases progress with
    | more longer =>
      cases continues
      obtain ⟨second, behind, ended, rfl, leads, complete, -⟩ := inductionHypothesis rfl fed
      exact ⟨character :: second, behind, ended, rfl, ⟨longer, stepped, leads⟩, complete,
        fun empty => absurd empty (List.cons_ne_nil _ _)⟩
    | complete =>
      obtain ⟨accepted, accepts, -⟩ := bindOk.mp continues
      exact ⟨[], character :: rest, number, rfl, rfl, Number.stepComplete stepped,
        fun _ => ⟨accepted, accepts⟩⟩

/-- Behind a complete report there is only white space. -/
theorem finishedRest (finished : state.phase = .finished) (fed : state.feedAll rest = .ok final) :
    Blank rest ∧ final = state := by
  induction rest generalizing state with
  | nil =>
    cases fed
    exact ⟨by simp [Blank], rfl⟩
  | cons character rest inductionHypothesis =>
    obtain ⟨next, fedFirst, fedRest⟩ := bindOk.mp fed
    obtain ⟨space, rfl⟩ := feedFinished finished fedFirst
    obtain ⟨isBlank, same⟩ := inductionHypothesis finished fedRest
    exact ⟨List.forall_mem_cons.mpr ⟨isSpaceCharacter.mp space, isBlank⟩, same⟩

section Finish

variable {reports : List FileReport}

theorem finishOk (ends : state.finish = .ok reports) : state.phase = .finished := by
  unfold finish at ends
  split at ends
  · next phase _ => exact phase
  · split at ends
    · obtain ⟨_, -, no⟩ := bindOk.mp ends
      cases no
    · split at ends <;> cases ends
  · cases ends

/-- A text that ends outside of numbers and before the end of its report ends too early. -/
theorem finishTruncated (unfinished : state.phase ≠ .finished)
    (noNumber : ∀ number, state.phase ≠ .number number) :
    state.finish = .error .truncated := by
  unfold finish
  split
  · next phase _ => cases unfinished phase
  · next phase => exact absurd phase (noNumber _)
  · rfl

/-- A number that is accepted is not the end of a report. -/
theorem finishNumber {number : Number} (inNumber : state.phase = .number number)
    (complete : number.isComplete) (accepts : state.acceptNumber number = .ok final) :
    state.finish = .error .truncated := by
  unfold finish
  split
  · next phase _ =>
    rw [inNumber] at phase
    cases phase
  · next phase =>
    rw [inNumber] at phase
    cases phase
    rw [if_pos complete, accepts]
    rfl
  · rfl

theorem finishUnfinished (unfinished : state.phase ≠ .finished) :
    ∃ failure, state.finish = .error failure := by
  cases ends : state.finish with
  | error failure => exact ⟨failure, rfl⟩
  | ok reports => exact absurd (finishOk ends) unfinished

end Finish

end State

/-- A text is read when the reader reaches the end of its report. -/
theorem readOk {text : List Char} {reports : List FileReport} (accepted : read text = .ok reports) :
    ∃ final, State.start.feedAll text = .ok final ∧ final.finish = .ok reports ∧
      final.phase = .finished := by
  obtain ⟨final, fed, ends⟩ := bindOk.mp accepted
  exact ⟨final, fed, ends, State.finishOk ends⟩

theorem readReached {text : List Char} {state : State} (fed : State.start.feedAll text = .ok state) :
    read text = state.finish := by
  rw [read, fed]
  rfl

/-- A text that ends before the closing bracket of a report is no report, and is known to end too
early unless it ends inside a number. -/
theorem readTruncated {cut rest : List Char} {reports : List FileReport}
    (accepted : read (cut ++ rest) = .ok reports) (closing : ']' ∈ rest) :
    (∃ failure, read cut = .error failure) ∧
      (¬ CutsNumber cut rest → read cut = .error .truncated) := by
  obtain ⟨final, fed, -, finished⟩ := readOk accepted
  obtain ⟨state, before, behind⟩ := State.feedAllSplit fed
  have unfinished : state.phase ≠ .finished := by
    intro already
    have blank := (State.finishedRest already behind).1 ']' closing
    revert blank
    decide
  rw [readReached before]
  refine ⟨State.finishUnfinished unfinished, ?_⟩
  intro whole
  cases phase : state.phase with
  | number number =>
    obtain ⟨earlier, first, rfl, outside, reads⟩ := State.numberBegan before phase
    obtain ⟨second, others, ended, rfl, leads, complete, accepts⟩ :=
      State.numberEnds phase behind finished
    have notEmpty : first ≠ [] := by
      obtain ⟨_, _, _, rfl, -⟩ := reads
      exact List.cons_ne_nil _ _
    cases second with
    | nil =>
      cases leads
      obtain ⟨accepted, accepts⟩ := accepts rfl
      exact State.finishNumber phase complete accepts
    | cons character second =>
      have isNumber : AnyNumber (first ++ character :: second) :=
        Number.anyOfReads (reads.append leads) complete
      exact absurd ⟨earlier, first, character :: second, others, rfl, rfl, notEmpty,
        List.cons_ne_nil _ _, isNumber, outside⟩ whole
  | string | literal | value | itemOrEnd | keyOrEnd | key | colon | separator | finished =>
    refine State.finishTruncated unfinished ?_
    intro number inNumber
    rw [phase] at inNumber
    cases inNumber

/-- Output that is cut anywhere is read like the whole output, or it is no report. -/
theorem readCutBytes {written missing : List UInt8} {reports : List FileReport}
    (accepted : read (Text.decodeLossily (written ++ missing)) = .ok reports) :
    read (Text.decodeLossily written) = .ok reports ∧ 0x5D ∉ missing ∨
      ∃ failure, read (Text.decodeLossily written) = .error failure := by
  obtain ⟨decoded, next, whole, cut⟩ := Text.decodeCut none written missing
  rw [Text.decodeLossily, whole] at accepted
  rw [Text.decodeLossily, cut]
  obtain ⟨final, fed, ends, finished⟩ := readOk accepted
  obtain ⟨state, before, behind⟩ := State.feedAllSplit fed
  cases next with
  | none =>
    rw [Text.decodeFrom, List.append_nil, readReached before]
    by_cases already : state.phase = .finished
    · obtain ⟨blank, rfl⟩ := State.finishedRest already behind
      refine .inl ⟨ends, ?_⟩
      intro closing
      have inside := blank _ (Text.decodeAscii (fun _ begun => by cases begun) (by decide) closing)
      revert inside
      decide
    · exact .inr (State.finishUnfinished already)
  | some begun =>
    -- A character that is cut in two is replaced, and what replaces it can stand in a string only.
    right
    cases replaced : read (decoded ++ [Text.replacementCharacter]) with
    | error failure => exact ⟨failure, replaced⟩
    | ok others =>
      obtain ⟨last, fedLast, -, finishedLast⟩ := readOk replaced
      obtain ⟨between, reached, step⟩ := State.reachedStep fedLast
      obtain ⟨_, _, inString⟩ := step.replacement (State.reached reached).2
      rw [inString] at finishedLast
      cases finishedLast

theorem diagnosticsOk {text : List Char} {all : List Diagnostic}
    (accepted : diagnostics text = .ok all) :
    ∃ reports, read text = .ok reports ∧ reports.flatMap FileReport.diagnostics = all :=
  mapOk.mp accepted

theorem diagnosticsError {text : List Char} {failure : Failure}
    (fails : read text = .error failure) : diagnostics text = .error failure := by
  rw [diagnostics, fails]
  rfl

/-- A report ends with a bracket. Up to there it is no report wherever it is cut, and known to be cut
unless a number is cut in two. A command that is stopped while it writes its report tells all of the
diagnostics, if only white space was still to come, or else none of them. -/
theorem truncatedReport {text : List Char} {all : List Diagnostic}
    (accepted : diagnostics text = .ok all) :
    (∃ body blank, text = body ++ ']' :: blank ∧ Blank blank) ∧
      (∀ body blank, text = body ++ ']' :: blank → Blank blank → ∀ cut rest, body = cut ++ rest →
        (∃ failure, diagnostics cut = .error failure) ∧
          (¬ CutsNumber cut (rest ++ ']' :: blank) → diagnostics cut = .error .truncated)) ∧
      ∀ (launch : Launch) (command : Command) (files after : FileTree)
        (written missing : List UInt8), text = Text.decodeLossily (written ++ missing) →
        launch command files = (.ok written, after) →
          command.collect launch files = (.ok all, after) ∧ 0x5D ∉ missing ∨
            ∃ failure, command.collect launch files = (.error (.unreadable failure), after) := by
  obtain ⟨reports, isRead, same⟩ := diagnosticsOk accepted
  refine ⟨?_, ?_, ?_⟩
  · obtain ⟨final, fed, -, finished⟩ := readOk isRead
    exact State.closingBracket fed finished
  · rintro body blank rfl - cut rest rfl
    rw [List.append_assoc] at isRead
    obtain ⟨⟨failure, fails⟩, truncated⟩ := readTruncated isRead (by simp)
    exact ⟨⟨failure, diagnosticsError fails⟩, fun whole => diagnosticsError (truncated whole)⟩
  · rintro launch command files after written missing rfl output
    rcases readCutBytes isRead with ⟨whole, noBracket⟩ | ⟨failure, fails⟩
    · have told : diagnostics (Text.decodeLossily written) = .ok all := by
        rw [diagnostics, whole, ← same]
        rfl
      left
      exact ⟨by simp only [Command.collect, output, told], noBracket⟩
    · right
      exact ⟨failure, by simp only [Command.collect, output, diagnosticsError fails]⟩

/-- A report that is cut within an escape. -/
theorem escapeTruncated :
    diagnostics "[\x7b\"filePath\":\"\\".toList = .error .truncated := by
  have accepted : diagnostics
      ("[\x7b\"filePath\":\"\\".toList ++ "n\"\x7d".toList ++ ']' :: []) = .ok [] := by
    decide +kernel
  obtain ⟨-, cuts, -⟩ := truncatedReport accepted
  refine (cuts _ [] rfl (by simp [Blank]) _ _ rfl).2 ?_
  intro cutsNumber
  obtain ⟨⟨before, last, spelled, isNumberCharacter⟩, -⟩ := cutsNumber.characters
  have lasts := congrArg List.getLast? spelled
  rw [List.getLast?_concat] at lasts
  cases lasts
  revert isNumberCharacter
  decide

/-- A number that is passed over and cut behind its sign is told as malformed. -/
example : diagnostics "[\x7b\"filePath\":\"\",\"time\":-".toList = .error .malformed := by
  decide +kernel

end LintRepair.LintReport
