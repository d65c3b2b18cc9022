/-
This file says how a report can be written. The first half is JSON's own grammar, the second half
says which texts stand for the parts of a report. No rule refers to the reader.
-/

import LintRepair.LintReport.Draft
import Mathlib.Data.List.ReduceOption
import Mathlib.Data.Nat.Digits.Defs

namespace LintRepair.LintReport

/-- White space may stand between any two tokens. -/
def Blank (text : List Char) : Prop :=
  ∀ character ∈ text, character ∈ [' ', '\n', '\t', '\r']

/-- A form with white space around it. -/
def Spaced (Form : List Char → Prop) (text : List Char) : Prop :=
  ∃ before inside behind, Blank before ∧ Form inside ∧ Blank behind ∧
    text = before ++ inside ++ behind

section Strings

/-- The characters that a string may hold as they are. -/
def IsPlain (character : Char) : Prop :=
  ' ' ≤ character ∧ character ≠ '"' ∧ character ≠ '\\'

/-- The characters that may be written as a backslash and a letter, with that letter. -/
def letterEscapes : List (Char × Char) :=
  [('"', '"'), ('\\', '\\'), ('/', '/'), ('\x08', 'b'), ('\x0c', 'f'), ('\n', 'n'), ('\r', 'r'),
    ('\t', 't')]

/-- A hexadecimal digit, in either case. -/
def HexadecimalDigit (value : Nat) (digit : Char) : Prop :=
  value < 16 ∧ (digit = value.digitChar ∨ digit = value.digitChar.toUpper)

/-- An escape with four hexadecimal digits. -/
inductive CodeEscape : Nat → List Char → Prop where
  | digits {a b c d : Nat} {first second third fourth : Char} :
      HexadecimalDigit a first → HexadecimalDigit b second → HexadecimalDigit c third →
      HexadecimalDigit d fourth →
      CodeEscape (((a * 16 + b) * 16 + c) * 16 + d) ['\\', 'u', first, second, third, fourth]

/-- The ways to write one character of a string. Characters beyond four hexadecimal digits are
escaped as a pair of surrogates. -/
inductive CharacterText (character : Char) : List Char → Prop where
  | plain : IsPlain character → CharacterText character [character]
  | letter {letter : Char} : (character, letter) ∈ letterEscapes →
      CharacterText character ['\\', letter]
  | code {written : List Char} : CodeEscape character.toNat written →
      CharacterText character written
  | pair {leading trailing : Nat} {first second : List Char} :
      CodeEscape (0xD800 + leading) first → CodeEscape (0xDC00 + trailing) second →
      leading < 0x400 → trailing < 0x400 →
      character.toNat = 0x10000 + leading * 0x400 + trailing →
      CharacterText character (first ++ second)

inductive EscapedText : List Char → List Char → Prop where
  | nil : EscapedText [] []
  | cons {character : Char} {text written rest : List Char} : CharacterText character written →
      EscapedText text rest → EscapedText (character :: text) (written ++ rest)

/-- The ways to write a string. -/
def StringText (value : String) (text : List Char) : Prop :=
  ∃ inside, EscapedText value.toList inside ∧ text = '"' :: inside ++ ['"']

/-- The inside of any string by JSON's grammar, also of one whose escapes stand for no text. -/
inductive StringInside : List Char → Prop where
  | nil : StringInside []
  | plain {character : Char} {rest : List Char} : IsPlain character → StringInside rest →
      StringInside (character :: rest)
  | letter {character letter : Char} {rest : List Char} : (character, letter) ∈ letterEscapes →
      StringInside rest → StringInside ('\\' :: letter :: rest)
  | code {value : Nat} {written rest : List Char} : CodeEscape value written →
      StringInside rest → StringInside (written ++ rest)

/-- A string of JSON's grammar. -/
def AnyString (text : List Char) : Prop :=
  ∃ inside, StringInside inside ∧ text = '"' :: inside ++ ['"']

end Strings

section Values

def Digits (text : List Char) : Prop :=
  text ≠ [] ∧ ∀ character ∈ text, character.isDigit

def IsSign (sign : List Char) : Prop :=
  sign = [] ∨ sign = ['-']

/-- The digits before the point: a zero alone, or digits without a leading zero. -/
def IsWhole (whole : List Char) : Prop :=
  whole = ['0'] ∨ Digits whole ∧ whole.head? ≠ some '0'

def IsFraction (fraction : List Char) : Prop :=
  fraction = [] ∨ ∃ digits, Digits digits ∧ fraction = '.' :: digits

def IsExponent (exponent : List Char) : Prop :=
  exponent = [] ∨ ∃ mark ∈ ['e', 'E'], ∃ sign ∈ [[], ['+'], ['-']], ∃ digits,
    Digits digits ∧ exponent = mark :: sign ++ digits

/-- A number of JSON's grammar. -/
def AnyNumber (text : List Char) : Prop :=
  ∃ sign whole fraction exponent, IsSign sign ∧ IsWhole whole ∧ IsFraction fraction ∧
    IsExponent exponent ∧ text = sign ++ whole ++ fraction ++ exponent

/-- The forms of JSON's grammar that hold each other. -/
inductive Form where
  | value
  | element
  | elements
  | member
  | members

/-- Any value of JSON's grammar, with the parts of arrays and objects. -/
inductive Json : Form → List Char → Prop where
  | literal {text : List Char} : text ∈ ["true".toList, "false".toList, "null".toList] →
      Json .value text
  | number {text : List Char} : AnyNumber text → Json .value text
  | string {text : List Char} : AnyString text → Json .value text
  | emptyArray {blank : List Char} : Blank blank → Json .value ('[' :: blank ++ [']'])
  | array {inside : List Char} : Json .elements inside → Json .value ('[' :: inside ++ [']'])
  | emptyObject {blank : List Char} : Blank blank → Json .value ('{' :: blank ++ ['}'])
  | object {inside : List Char} : Json .members inside → Json .value ('{' :: inside ++ ['}'])
  | element {before inside behind : List Char} : Blank before → Json .value inside →
      Blank behind → Json .element (before ++ inside ++ behind)
  | lastElement {text : List Char} : Json .element text → Json .elements text
  | nextElement {text rest : List Char} : Json .element text → Json .elements rest →
      Json .elements (text ++ ',' :: rest)
  | member {key text : List Char} : Spaced AnyString key → Json .element text →
      Json .member (key ++ ':' :: text)
  | lastMember {text : List Char} : Json .member text → Json .members text
  | nextMember {text rest : List Char} : Json .member text → Json .members rest →
      Json .members (text ++ ',' :: rest)

end Values

section Records

variable {Item Field Value : Type}

/-- Items between commas. No items leave white space at most. -/
inductive Listed (Text : Item → List Char → Prop) : List Item → List Char → Prop where
  | none {blank : List Char} : Blank blank → Listed Text [] blank
  | last {item : Item} {text : List Char} : Text item text → Listed Text [item] text
  | next {item : Item} {items : List Item} {text rest : List Char} : Text item text →
      items ≠ [] → Listed Text items rest → Listed Text (item :: items) (text ++ ',' :: rest)

/-- An array of items, in their order. -/
def ArrayText (Text : Item → List Char → Prop) (items : List Item) (text : List Char) : Prop :=
  ∃ inside, Listed (fun item => Spaced (Text item)) items inside ∧
    text = '[' :: inside ++ [']']

/-- A member of an object: a field, or a further key, which is none, with any value. -/
inductive MemberText (key : Field → String) (Text : Field → List Char → Prop) :
    Option Field → List Char → Prop where
  | field {field : Field} {name value : List Char} : Spaced (StringText (key field)) name →
      Spaced (Text field) value → MemberText key Text (some field) (name ++ ':' :: value)
  | further {other : String} {name value : List Char} : (∀ field, key field ≠ other) →
      Spaced (StringText other) name → Json .element value →
      MemberText key Text none (name ++ ':' :: value)

/-- An object with its fields in any order, each at most once, between any further keys. -/
def ObjectText (key : Field → String) (Text : Field → List Char → Prop) (needed : Field → Prop)
    (text : List Char) : Prop :=
  ∃ members inside, Listed (MemberText key Text) members inside ∧ members.reduceOption.Nodup ∧
    (∀ field, needed field → some field ∈ members) ∧ text = '{' :: inside ++ ['}']

/-- A natural number is written in decimal digits. -/
def NumeralText (value : Nat) (text : List Char) : Prop :=
  text = Nat.toDigits 10 value

/-- An absent value is written as null, where it is written at all. -/
def OptionalText (Text : Value → List Char → Prop) : Option Value → List Char → Prop
  | some value => Text value
  | none => fun text => text = "null".toList

end Records

def MessageField.key : MessageField → String
  | .severity => "severity"
  | .line => "line"
  | .column => "column"
  | .rule => "ruleId"
  | .text => "message"

def ReportField.key : ReportField → String
  | .path => "filePath"
  | .messages => "messages"

namespace Message

/-- The severity is a number of 8 bits, line and column are numbers of 64 bits. -/
structure InRange (message : Message) : Prop where
  severity : message.severity < Nat.pow 2 8
  line : ∀ line ∈ message.line, line < Nat.pow 2 64
  column : ∀ column ∈ message.column, column < Nat.pow 2 64

def FieldText (message : Message) : MessageField → List Char → Prop
  | .severity => NumeralText message.severity
  | .line => OptionalText NumeralText message.line
  | .column => OptionalText NumeralText message.column
  | .rule => OptionalText StringText message.rule
  | .text => StringText message.text

/-- Absent optional fields may be omitted. -/
def Needed (message : Message) : MessageField → Prop
  | .severity | .text => True
  | .line => message.line ≠ none
  | .column => message.column ≠ none
  | .rule => message.rule ≠ none

def Written (message : Message) : List Char → Prop :=
  ObjectText MessageField.key message.FieldText message.Needed

end Message

namespace FileReport

def FieldText (report : FileReport) : ReportField → List Char → Prop
  | .path => StringText report.path.spelling
  | .messages => ArrayText Message.Written report.messages

/-- An empty list of messages may be omitted. -/
def Needed (report : FileReport) : ReportField → Prop
  | .path => True
  | .messages => report.messages ≠ []

def Written (report : FileReport) : List Char → Prop :=
  ObjectText ReportField.key report.FieldText report.Needed

/-- The texts that stand for some reports. -/
def AllWritten (reports : List FileReport) : List Char → Prop :=
  Spaced (ArrayText Written reports)

end FileReport

end LintRepair.LintReport
