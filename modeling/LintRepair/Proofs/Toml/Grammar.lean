/-
This file says how strings, arrays of them, keys and lines can be written in a TOML document. No
rule refers to the reader; only the classes of characters are shared with it.
-/

import LintRepair.Proofs.LintReport.Grammar
import LintRepair.Toml.Document

namespace LintRepair.Toml

section Strings

/-- The characters that a string may hold as they are. -/
def IsPlain (character : Char) : Prop :=
  isTextCharacter character ∧ character ≠ '"' ∧ character ≠ '\\'

instance : DecidablePred IsPlain := fun character =>
  inferInstanceAs (Decidable (isTextCharacter character ∧ character ≠ '"' ∧ character ≠ '\\'))

/-- The characters that may be written as a backslash and a letter, with that letter. -/
def letterEscapes : List (Char × Char) :=
  [('\x08', 'b'), ('\t', 't'), ('\n', 'n'), ('\x0c', 'f'), ('\r', 'r'), ('"', '"'), ('\\', '\\')]

/-- The letters of escapes by code, with the number of their digits. -/
def codeEscapes : List (Char × Nat) :=
  [('u', 4), ('U', 8)]

/-- The number that hexadecimal digits stand for. -/
def codeValue (digits : List Nat) : Nat :=
  digits.foldl (fun value digit => value * 16 + digit) 0

/-- The ways to write one character of a string. -/
inductive CharacterText (character : Char) : List Char → Prop where
  | plain : IsPlain character → CharacterText character [character]
  | letter {letter : Char} : (character, letter) ∈ letterEscapes →
      CharacterText character ['\\', letter]
  | code {letter : Char} {digits : List Nat} {written : List Char} :
      (letter, digits.length) ∈ codeEscapes →
      List.Forall₂ LintReport.HexadecimalDigit digits written →
      codeValue digits = character.toNat →
      CharacterText character ('\\' :: letter :: written)

inductive EscapedText : List Char → List Char → Prop where
  | nil : EscapedText [] []
  | cons {character : Char} {text written rest : List Char} : CharacterText character written →
      EscapedText text rest → EscapedText (character :: text) (written ++ rest)

/-- The ways to write a string between double quotation marks on one line. -/
def StringText (value : String) (text : List Char) : Prop :=
  ∃ inside, EscapedText value.toList inside ∧ text = '"' :: (inside ++ ['"'])

/-- The ways to write one part of a key. -/
inductive KeyText (name : String) : List Char → Prop where
  | bare : name.toList ≠ [] → (∀ character ∈ name.toList, isBareKeyCharacter character) →
      KeyText name name.toList
  | quoted {text : List Char} : StringText name text → KeyText name text
  | literal : (∀ character ∈ name.toList, isTextCharacter character ∧ character ≠ '\'') →
      KeyText name ('\'' :: (name.toList ++ ['\'']))

end Strings

section Lines

def InlineSpace (text : List Char) : Prop :=
  ∀ character ∈ text, isInlineSpace character

/-- Nothing, or a number sign and the text up to the end of the line. -/
def CommentText (text : List Char) : Prop :=
  text = [] ∨ ∃ inside, (∀ character ∈ inside, isTextCharacter character) ∧ text = '#' :: inside

/-- What may stand on a line behind all else. -/
def RestOfLine (text : List Char) : Prop :=
  ∃ space comment, InlineSpace space ∧ CommentText comment ∧ text = space ++ comment

def LineEnd (text : List Char) : Prop :=
  ∃ rest, ∃ mark ∈ [['\n'], ['\r', '\n']], RestOfLine rest ∧ text = rest ++ mark

/-- Lines with at most a comment on them. -/
inductive BlankLines : List Char → Prop where
  | none : BlankLines []
  | next {line rest : List Char} : LineEnd line → BlankLines rest → BlankLines (line ++ rest)

/-- Lines of a form for the members of a list, one for each, with blank lines around them. -/
inductive Lines {Item : Type} (Text : Item → List Char → Prop) : List Item → List Char → Prop where
  | none {blank : List Char} : BlankLines blank → Lines Text [] blank
  | next {item : Item} {items : List Item} {blank line rest : List Char} : BlankLines blank →
      Text item line → Lines Text items rest →
      Lines Text (item :: items) (blank ++ (line ++ rest))

/-- A key, an equals sign and a value on a line. -/
def PairText (name : String) (Text : List Char → Prop) (line : List Char) : Prop :=
  ∃ indent spelled before behind value lineEnd, InlineSpace indent ∧ KeyText name spelled ∧
    InlineSpace before ∧ InlineSpace behind ∧ Text value ∧ LineEnd lineEnd ∧
    line = indent ++ (spelled ++ (before ++ '=' :: (behind ++ (value ++ lineEnd))))

/-- A name between brackets on a line. -/
def HeaderText (name : String) (line : List Char) : Prop :=
  ∃ indent before spelled behind lineEnd, InlineSpace indent ∧ InlineSpace before ∧
    KeyText name spelled ∧ InlineSpace behind ∧ LineEnd lineEnd ∧
    line = indent ++ '[' :: (before ++ (spelled ++ (behind ++ ']' :: lineEnd)))

/-- The beginning of a statement about a key of a table: a pair in that table, or the header of a
table or of an element below it. The text goes on in any way. -/
inductive KeyAhead (table name : String) : List Char → Prop where
  | pair {indent spelled rest : List Char} : InlineSpace indent → KeyText name spelled →
      rest.head?.any isBareKeyCharacter = false → KeyAhead table name (indent ++ (spelled ++ rest))
  | header {indent brackets before opening behind between spelled rest : List Char} :
      InlineSpace indent → brackets ∈ [['['], ['[', '[']] → InlineSpace before →
      KeyText table opening → InlineSpace behind → InlineSpace between → KeyText name spelled →
      rest.head?.any isBareKeyCharacter = false →
      KeyAhead table name (indent ++ (brackets ++
        (before ++ (opening ++ (behind ++ '.' :: (between ++ (spelled ++ rest)))))))

end Lines

section Arrays

/-- White space, line ends and comments between the tokens of an array. -/
def GapText (text : List Char) : Prop :=
  ∃ lines space, BlankLines lines ∧ InlineSpace space ∧ text = lines ++ space

/-- Strings between commas; one more comma may stand behind the last one. -/
inductive Listed : List String → List Char → Prop where
  | none {gap : List Char} : GapText gap → Listed [] gap
  | last {item : String} {before text behind : List Char} : GapText before →
      StringText item text → GapText behind → Listed [item] (before ++ (text ++ behind))
  | next {item : String} {items : List String} {before text behind rest : List Char} :
      GapText before → StringText item text → GapText behind → Listed items rest →
      Listed (item :: items) (before ++ (text ++ (behind ++ ',' :: rest)))

/-- The ways to write an array of strings, in their order. -/
def ArrayText (items : List String) (text : List Char) : Prop :=
  ∃ inside, Listed items inside ∧ text = '[' :: (inside ++ [']'])

end Arrays

end LintRepair.Toml
