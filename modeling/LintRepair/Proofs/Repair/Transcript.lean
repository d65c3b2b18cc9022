/-
This file shows which text the notices of a repair come to, line by line.
-/

import LintRepair.Proofs.CompilerOutput.Message
import LintRepair.Repair.Notice
import LintRepair.Repair.Parameters
import LintRepair.Text.Separate

namespace LintRepair

/-- The line that tells of a renamed parameter. -/
def Diagnostic.fixedLine (diagnostic : Diagnostic) : String :=
  "Fixed: " ++ diagnostic.file.spelling ++ ":" ++ toString diagnostic.line ++ " - prefixed '" ++
    diagnostic.symbol.getD "" ++ "' with underscore"

namespace Notice

/-- The lines of what is told. A text that ends its last line has an empty one behind it. -/
def lines (notices : List Notice) : List String :=
  (Text.separate '\n' (transcript notices).toList).map String.ofList

@[simp] theorem transcriptNil : transcript [] = "" := rfl

theorem transcriptCons (notice : Notice) (notices : List Notice) :
    transcript (notice :: notices) = notice.text ++ transcript notices := by
  rw [transcript, List.map_cons, String.join_cons, transcript]

theorem transcriptAppend (front back : List Notice) :
    transcript (front ++ back) = transcript front ++ transcript back := by
  rw [transcript, List.map_append, String.join_append, transcript, transcript]

theorem recheckingText :
    text .rechecking = "\x1b[32m✓\x1b[0m Fixes applied. Checking remaining errors...\n" := by
  decide +kernel

theorem noLineFeedInNumber (number : Nat) : '\n' ∉ (toString number).toList := by
  have digits := Text.digitsAreDigits number
  intro inside
  have isDigit := digits '\n' (by simpa using inside)
  exact absurd isDigit (by decide)

/-- A diagnostic of the type checker is told on one line. -/
theorem fixedLineOneLine {output : List UInt8} {diagnostic : Diagnostic}
    (read : diagnostic ∈ CompilerOutput.diagnostics output) :
    '\n' ∉ diagnostic.fixedLine.toList := by
  obtain ⟨line, -, isRead⟩ := List.mem_filterMap.mp read
  obtain ⟨unread, tells⟩ := CompilerOutput.diagnosticTells isRead
  have nameOneLine : '\n' ∉ (diagnostic.symbol.getD "").toList := by
    rw [tells.symbol, Option.getD_some, String.toList_ofList]
    intro inside
    exact absurd (tells.formed.name.2 '\n' inside) (by decide)
  simp only [Diagnostic.fixedLine, String.toList_append, List.mem_append, not_or]
  exact ⟨⟨⟨⟨⟨⟨by decide, tells.pathOneLine⟩, by decide⟩, noLineFeedInNumber _⟩, by decide⟩,
    nameOneLine⟩, by decide⟩

theorem textOfPrefixed (diagnostic : Diagnostic) :
    text (.prefixed diagnostic) = diagnostic.fixedLine ++ "\n" := by
  have ended : "' with underscore\n" = "' with underscore" ++ "\n" := by decide +kernel
  exact (congrArg (_ ++ ·) ended).trans (String.append_assoc ..).symm

theorem prefixedTranscript (told : List Diagnostic) :
    (transcript (told.map .prefixed)).toList =
      (told.map fun diagnostic => diagnostic.fixedLine.toList).flatMap fun line =>
        line ++ ['\n'] := by
  induction told with
  | nil => rfl
  | cons diagnostic told inductionHypothesis =>
    rw [List.map_cons, transcriptCons, textOfPrefixed, String.toList_append, String.toList_append,
      inductionHypothesis]
    rfl

/-- Every renamed parameter is told on a line of its own. -/
theorem prefixedLines {told : List Diagnostic}
    (oneLine : ∀ diagnostic ∈ told, '\n' ∉ diagnostic.fixedLine.toList) (behind : List Notice) :
    lines (told.map .prefixed ++ behind) = told.map Diagnostic.fixedLine ++ lines behind := by
  rw [lines, transcriptAppend, String.toList_append, prefixedTranscript, Text.separateEnded]
  · rw [List.map_append, List.map_map, lines]
    simp only [Function.comp_def, String.ofList_toList]
  · intro line inside
    obtain ⟨diagnostic, isTold, rfl⟩ := List.mem_map.mp inside
    exact oneLine diagnostic isTold

theorem totalLines (count : Nat) : lines [.total count] =
    ["", "Total fixes applied: " ++ toString count, ""] := by
  have opened : "\nTotal fixes applied: ".toList = '\n' :: "Total fixes applied: ".toList := by
    decide +kernel
  have oneLine : '\n' ∉ ("Total fixes applied: " ++ toString count).toList := by
    rw [String.toList_append, List.mem_append, not_or]
    exact ⟨by decide +kernel, noLineFeedInNumber count⟩
  have whole : text (.total count) = "\nTotal fixes applied: " ++ toString count ++ "\n" := rfl
  have parts : (transcript [.total count]).toList =
      [] ++ '\n' :: (("Total fixes applied: " ++ toString count).toList ++ '\n' :: []) := by
    rw [transcriptCons, transcriptNil, String.append_empty, whole, String.toList_append,
      String.toList_append, String.toList_append, opened]
    rfl
  rw [lines, parts, Text.separateAppend, Text.separateAppend, Text.separateWhole oneLine]
  simp only [Text.separate, List.map_append, List.map_cons, List.map_nil, String.ofList_toList]
  rfl

end Notice

end LintRepair
