/-
This file applies edits of single lines to a buffer, each in answer to a diagnostic of its line.
-/

import LintRepair.Buffer
import LintRepair.Diagnostic.LineOrder
import LintRepair.Fix.Declaration
import LintRepair.Fix.Parameter

namespace LintRepair

/-- An edit sees a diagnostic and the text of its line. It gives the new text, or nothing when it
leaves the line alone. -/
abbrev LineEdit := Diagnostic → List Char → Option (List Char)

namespace LineEdit

/-- A line that is one complete declaration becomes empty. -/
def blankDeclaration : LineEdit := fun _ line =>
  if Declaration.isRemovable line then some [] else none

/-- The parameter that the diagnostic names gets an underscore. -/
def prefixParameter : LineEdit := fun diagnostic line =>
  diagnostic.symbol.bind fun symbol => Parameter.rename? line symbol.toList

/-- The buffer after the edit of one diagnostic's line. There is no result when the line does not
exist or the edit leaves it alone. -/
def applyOne? (edit : LineEdit) (buffer : Buffer) (diagnostic : Diagnostic) : Option Buffer := do
  let line ← buffer.line? diagnostic.line
  let text ← edit diagnostic line
  buffer.setLine? diagnostic.line text

/-- The diagnostics are answered in the given order, each in the buffer that the one before it
left. The result lists those that led to an edit. -/
def applyInOrder (edit : LineEdit) : Buffer → List Diagnostic → Buffer × List Diagnostic
  | buffer, [] => (buffer, [])
  | buffer, diagnostic :: rest =>
    match applyOne? edit buffer diagnostic with
    | none => applyInOrder edit buffer rest
    | some edited =>
      let (last, fixed) := applyInOrder edit edited rest
      (last, diagnostic :: fixed)

/-- The highest line is edited first. -/
def apply (edit : LineEdit) (buffer : Buffer) (diagnostics : List Diagnostic) :
    Buffer × List Diagnostic :=
  applyInOrder edit buffer (Diagnostic.descending diagnostics)

end LineEdit

end LintRepair
