/-
This file turns calls of `require` into import declarations and awaits dynamic imports.
-/

import LintRepair.Text.Scan

namespace LintRepair

open Text Unicode

/-- What is imported from a module: one name, or a list of names as it is written. -/
structure RequireImport where
  binding : List Char
  source : List Char
deriving Repr, DecidableEq

namespace RequireImport

/-- An equals sign and a call of `require`, whose argument is the module. -/
def call? (text : List Char) : Option (List Char × List Char) := do
  let text ← literal? ['='] (skipBlanks text)
  let text ← literal? "require".toList (skipBlanks text)
  quotedArgument? text

/-- A constant with one name. -/
def single : Pattern RequireImport := fun _ text => do
  let text ← literal? "const".toList text
  let text ← blanks? text
  let (binding, text) ← word? text
  let (source, text) ← call? text
  return (⟨binding, source⟩, text)

def isInlineBlank (character : Char) : Bool :=
  character == ' ' || character == '\t'

/-- The text in braces without the blanks at its ends. Blanks alone stand for their last one, and
an empty text for nothing. -/
def names? (inside : List Char) : Option (List Char) :=
  match (inside.dropWhile isInlineBlank).reverse.dropWhile isInlineBlank with
  | [] => inside.getLast?.map fun character => [character]
  | reversed => some reversed.reverse

/-- A constant with names in braces. -/
def destructured : Pattern RequireImport := fun _ text => do
  let text ← literal? "const".toList text
  let text ← blanks? text
  let text ← literal? ['{'] text
  let binding ← names? (text.takeWhile (· != '}'))
  let text ← literal? ['}'] (text.dropWhile (· != '}'))
  let (source, text) ← call? text
  return (⟨binding, source⟩, text)

/-- An import that is evaluated where it stands; the match holds its module. -/
def dynamic : Pattern (List Char) := fun _ text => do
  let text ← literal? "import".toList text
  quotedArgument? text

/-- A dynamic import behind the whole word `await`. -/
def awaited : Pattern (List Char) := fun before text => do
  guard (isWordBoundary before text.head?)
  let text ← literal? "await".toList text
  let text ← blanks? text
  dynamic none text

def quoted (source : List Char) : List Char :=
  '"' :: source ++ ['"']

def singleDeclaration (require : RequireImport) : List Char :=
  "import ".toList ++ require.binding ++ " from ".toList ++ quoted require.source

def namedDeclaration (require : RequireImport) : List Char :=
  "import \x7b ".toList ++ require.binding ++ " \x7d from ".toList ++ quoted require.source

def awaitedImport (source : List Char) : List Char :=
  "await import(".toList ++ quoted source ++ [')']

end RequireImport

/-- A converted text, the number of replacements, and how many dynamic imports were awaited
before and are now awaited twice. -/
structure ImportConversion where
  text : List Char
  replacements : Nat
  doubleAwaited : Nat
deriving Repr, DecidableEq

namespace ImportConversion

open RequireImport

/-- The text in which both forms of `require` have become declarations. -/
def declared (text : List Char) : List Char :=
  replaceAll destructured namedDeclaration (replaceAll single singleDeclaration text)

/-- The three replacements are made one after the other, each in the text that the one before
it left. -/
def ofText (text : List Char) : ImportConversion where
  text := replaceAll dynamic awaitedImport (declared text)
  replacements := (occurrences single text).length +
    (occurrences destructured (replaceAll single singleDeclaration text)).length +
    (occurrences dynamic (declared text)).length
  doubleAwaited := (occurrences awaited (declared text)).length

end ImportConversion

end LintRepair
