/-
This file holds shell scripts as trees.
-/

import LintRepair.Shell.Octets

namespace LintRepair.Shell

/-- When a fallback word is taken: in place of a missing value, in place of it and kept as the new
value, as the words of an error, or when the value is there. -/
inductive Fallback where
  | instead
  | assigned
  | failure
  | alternative
deriving Repr, DecidableEq

/-- Where a redirection leads. -/
inductive RedirectionKind where
  | input
  | inputOutput
  | output
  | clobber
  | append
deriving Repr, DecidableEq

mutual

/-- A part of a word. The value of a quoted part is one text; the value of any other part is split
at separators. -/
inductive WordPart where
  | literal (text : Octets)
  | quoted (text : Octets)
  | parameter (name : Octets) (change : Change) (isQuoted : Bool)
  | substitution (script : Script) (isQuoted : Bool)
  | arithmetic (expression : List WordPart) (isQuoted : Bool)

/-- What becomes of the value of a parameter. -/
inductive Change where
  | unchanged
  | length
  | fallback (kind : Fallback) (orEmpty : Bool) (word : List WordPart)
  | trimmed (fromEnd longest : Bool) (pattern : List WordPart)
  | malformed

inductive Redirection where
  | file (descriptor : Nat) (kind : RedirectionKind) (target : List WordPart)
  | copy (descriptor : Nat) (source : List WordPart)
  | document (descriptor : Nat) (text : List WordPart)

/-- A command or several joined ones. The number is the line on which a command begins. A loop goes
on as long as its test comes out as expected. -/
inductive Script where
  | nothing
  | simple (line : Nat) (assignments : List (Octets × List WordPart))
      (words : List (List WordPart)) (redirections : List Redirection)
  | redirected (line : Nat) (script : Script) (redirections : List Redirection)
  | sequence (first second : Script)
  | background (script : Script)
  | both (first second : Script)
  | either (first second : Script)
  | negation (script : Script)
  | pipeline (commands : List Script)
  | conditional (test yes : Script) (no : Option Script)
  | loop (expected : Bool) (test body : Script)
  | each (line : Nat) (name : Octets) (words : List (List WordPart)) (body : Script)
  | choice (line : Nat) (word : List WordPart)
      (cases : List (List (List WordPart) × Option Script))
  | definition (name : Octets) (body : Script)
  | subshell (line : Nat) (script : Script) (redirections : List Redirection)

end

abbrev Word := List WordPart

/-- The text of a word without quotations and expansions. -/
def plainText? : Word → Option Octets
  | [] => some []
  | .literal text :: parts => (plainText? parts).map (text ++ ·)
  | _ :: _ => none

end LintRepair.Shell
