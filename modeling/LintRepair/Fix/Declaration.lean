/-
This file recognises a line that holds one complete declaration and nothing else.
-/

import LintRepair.Text.Reader

namespace LintRepair.Declaration

open Text Unicode

/-- A declaration ends with a semicolon behind which only white space stands. What precedes it may
be anything on one line. -/
def endsStatement (text : List Char) : Bool :=
  match text.reverse.dropWhile isBlank with
  | ';' :: body => !body.contains '\n'
  | _ => false

/-- A keyword, one name and an equals sign. -/
def variableHead? (keyword : List Char) (text : List Char) : Option (List Char) := do
  let text ← literal? keyword text
  let text ← blanks? text
  let (_, text) ← word? text
  literal? ['='] (skipBlanks text)

/-- Names in braces and the word `from`. -/
def namedImportHead? (text : List Char) : Option (List Char) := do
  let text ← literal? "import".toList text
  let text ← literal? ['{'] (skipBlanks text)
  let text ← literal? ['}'] (text.dropWhile (· != '}'))
  literal? "from".toList (skipBlanks text)

/-- One name and the word `from`. -/
def defaultImportHead? (text : List Char) : Option (List Char) := do
  let text ← literal? "import".toList text
  let text ← blanks? text
  let (_, text) ← word? text
  let text ← blanks? text
  literal? "from".toList text

/-- The ways in which a removable declaration may begin. -/
def heads : List (List Char → Option (List Char)) :=
  [variableHead? "const".toList, variableHead? "let".toList, variableHead? "var".toList,
    namedImportHead?, defaultImportHead?]

/-- Whether a line is one complete declaration, so that it may be blanked as a whole. -/
def isRemovable (line : List Char) : Bool :=
  heads.any fun head? => (head? (skipBlanks line)).any endsStatement

end LintRepair.Declaration
