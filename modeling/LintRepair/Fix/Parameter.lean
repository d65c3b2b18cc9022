/-
This file renames a parameter on the line that declares it.
-/

import LintRepair.Text.Scan

namespace LintRepair.Parameter

open Text Unicode

/-- A parameter is followed by its type, by the next parameter or by the end of the list. -/
def isDelimiter (character : Char) : Bool :=
  character == ':' || character == ',' || character == ')'

/-- The name as a whole word with a delimiter behind it. The match holds the white space and the
delimiter behind the name. -/
def occurrence (name : List Char) : Pattern (List Char) := fun before text => do
  guard (isWordBoundary before text.head?)
  let behind ← literal? name text
  guard (isWordBoundary (name.getLast?.or before) behind.head?)
  match behind.dropWhile isBlank with
  | [] => none
  | character :: rest =>
    if isDelimiter character then some (behind.takeWhile isBlank ++ [character], rest) else none

/-- The line with an underscore before every occurrence of the name, if there is one. -/
def rename? (line name : List Char) : Option (List Char) :=
  if (occurrences (occurrence name) line).isEmpty then none
  else some (replaceAll (occurrence name) (fun behind => '_' :: name ++ behind) line)

end LintRepair.Parameter
