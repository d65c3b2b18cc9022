/-
This file evaluates conditions on texts, numbers and files.
-/

import LintRepair.Shell.Integer
import LintRepair.Shell.Place

namespace LintRepair.Shell.Utility

namespace Test

inductive Operator where
  | unary (letter : Char)
  | binary (name : String)
  | negation
  | conjunction
  | disjunction
  | opening
  | closing
deriving DecidableEq

def unaryLetters : List Char :=
  "rwxefdcbpugkstznhOGLS".toList

def binaryNames : List String :=
  ["=", "!=", "<", ">", "-eq", "-ne", "-gt", "-ge", "-lt", "-le", "-nt", "-ot", "-ef"]

def operator? (text : Octets) : Option Operator :=
  match text with
  | ['!'] => some .negation
  | ['('] => some .opening
  | [')'] => some .closing
  | ['-', 'a'] => some .conjunction
  | ['-', 'o'] => some .disjunction
  | ['-', letter] => if unaryLetters.contains letter then some (.unary letter) else none
  | _ =>
    let name := String.ofList text
    if binaryNames.contains name then some (.binary name) else none

def isBinary (text : Octets) : Bool :=
  match operator? text with
  | some (.binary _) => true
  | _ => false

/-- The first of the texts as a part of a condition. -/
inductive Lexeme where
  | missing
  | operand
  | operator (operator : Operator)
deriving DecidableEq

/-- An operator for one operand is an operand itself if none follows, or if an operator for two
operands with its second one follows. -/
def lexeme (texts : List Octets) : Lexeme :=
  match texts with
  | [] => .missing
  | text :: rest =>
    match operator? text with
    | none => .operand
    | some (.unary letter) =>
      match rest with
      | [] => .operand
      | [_] => .operator (.unary letter)
      | next :: _ => if isBinary next then .operand else .operator (.unary letter)
    | some .opening => if rest.isEmpty then .operand else .operator .opening
    | some operator => .operator operator

/-- The last text that was looked at stands first. -/
abbrev Evaluating := StateT (List Octets) (ExceptT Octets Step)

def failure {Value : Type} (subject : Octets) (message : String) : Evaluating Value :=
  throw (if subject.isEmpty then message.toList else subject ++ ": ".toList ++ message.toList)

def number (text : Octets) : Evaluating Int :=
  match wholeInteger? text with
  | some value => return value
  | none => throw ("Illegal number: ".toList ++ text)

/-- Whether a file has a property. Everything that is there can be read and written. -/
def fileTest (letter : Char) (path : Octets) : Step Bool := do
  match ← Step.target path with
  | .error _ => return false
  | .ok target =>
    match letter, target with
    | 'f', .file _ | 'f', .program _ => return true
    | 'd', .directory _ => return true
    | 'x', .directory _ | 'x', .program _ => return true
    | 'c', .null => return true
    | 'p', .pipe _ => return true
    | 's', .file _ => return !(Step.contentFrom (← get) target 0).isEmpty
    | 's', .directory _ | 's', .program _ => return true
    | letter, _ => return "erwOG".toList.contains letter

def unary (letter : Char) (operand : Octets) : Evaluating Bool :=
  match letter with
  | 'z' => return operand.isEmpty
  | 'n' => return !operand.isEmpty
  | 't' => do
    let _ ← number operand
    return false
  | letter => fileTest letter operand

def areSame (left right : Octets) : Step Bool := do
  match ← Step.target left, ← Step.target right with
  | .ok left, .ok right => return left = right
  | _, _ => return false

/-- The order of bytes, which are numbers without a sign. -/
def isBefore : Octets → Octets → Bool
  | _, [] => false
  | [], _ :: _ => true
  | left :: lefts, right :: rights =>
    left.toNat < right.toNat || (left = right && isBefore lefts rights)

def compareNumbers (compare : Int → Int → Bool) (left right : Octets) : Evaluating Bool := do
  let left ← number left
  let right ← number right
  return compare left right

/-- Whether both files are there and the first one was changed later. -/
def isNewer (left right : Octets) : Step Bool := do
  match ← Step.target left, ← Step.target right with
  | .ok left, .ok right => return (← Step.age right) < (← Step.age left)
  | _, _ => return false

def binary (name : String) (left right : Octets) : Evaluating Bool :=
  match name with
  | "=" => return left = right
  | "!=" => return left != right
  | "<" => return isBefore left right
  | ">" => return isBefore right left
  | "-eq" => compareNumbers (fun left right => left = right) left right
  | "-ne" => compareNumbers (fun left right => left ≠ right) left right
  | "-gt" => compareNumbers (fun left right => right < left) left right
  | "-ge" => compareNumbers (fun left right => right ≤ left) left right
  | "-lt" => compareNumbers (fun left right => left < right) left right
  | "-le" => compareNumbers (fun left right => left ≤ right) left right
  | "-ef" => areSame left right
  | "-nt" => isNewer left right
  | "-ot" => isNewer right left
  | _ => return false

mutual

def disjunction : Nat → Lexeme → Evaluating Bool
  | 0, _ => return false
  | fuel + 1, first => do
    let left ← conjunction fuel first
    if lexeme (← get).tail = .operator .disjunction then
      let texts := (← get).drop 2
      set texts
      let right ← disjunction fuel (lexeme texts)
      return left || right
    else return left

def conjunction : Nat → Lexeme → Evaluating Bool
  | 0, _ => return false
  | fuel + 1, first => do
    let left ← negation fuel first
    if lexeme (← get).tail = .operator .conjunction then
      let texts := (← get).drop 2
      set texts
      let right ← conjunction fuel (lexeme texts)
      return left && right
    else return left

def negation : Nat → Lexeme → Evaluating Bool
  | 0, _ => return false
  | fuel + 1, first => do
    if first = .operator .negation then
      let texts := (← get).tail
      unless texts.isEmpty do set texts
      return !(← negation fuel (lexeme texts))
    else primary fuel first

def primary : Nat → Lexeme → Evaluating Bool
  | 0, _ => return false
  | fuel + 1, first => do
    match first with
    | .missing => return false
    | .operator .opening =>
      let texts := (← get).tail
      set texts
      if lexeme texts = .operator .closing then return false
      else
        let value ← disjunction fuel (lexeme texts)
        let texts := (← get).tail
        set texts
        if lexeme texts = .operator .closing then return value
        else failure [] "closing paren expected"
    | .operator (.unary letter) =>
      let texts := (← get).tail
      set texts
      match texts with
      | [] => failure ['-', letter] "argument expected"
      | operand :: _ => unary letter operand
    | _ =>
      match ← get with
      | left :: operator :: rest =>
        match lexeme (operator :: rest) with
        | .operator (.binary name) =>
          set rest
          match rest with
          | [] => failure operator "argument expected"
          | right :: _ => binary name left right
        | _ => return !left.isEmpty
      | [text] => return !text.isEmpty
      | [] => return false

end

/-- The value of a whole condition. -/
def whole (first : Lexeme) (texts : List Octets) : ExceptT Octets Step Bool := do
  let evaluating : Evaluating Bool := do
    let value ← disjunction (8 * texts.length + 8) first
    match ← get with
    | text :: _ :: _ => failure text "unexpected operator"
    | _ => return value
  let (value, _) ← evaluating.run texts
  return value

/-- Conditions of three and four texts have rules of their own: an operator between two texts counts
first, then parentheses around the rest, then a negation. Several negations at the start count as
one. -/
def condition : Nat → Bool → List Octets → ExceptT Octets Step Bool
  | 0, _, _ => return false
  | rounds + 1, isNegated, texts => do
    let value ←
      match texts with
      | [] => pure false
      | first :: rest =>
        let isShort := texts.length = 3 || texts.length = 4
        if texts.length = 3 && (rest.head?.map isBinary).getD false then whole .operand texts
        else if isShort && first = ['('] && rest.getLast? = some [')'] then
          whole (lexeme rest.dropLast) rest.dropLast
        else if isShort && first = ['!'] then return ← condition rounds true rest
        else whole (lexeme texts) texts
    return value != isNegated

end Test

/-- The status that a condition gives. -/
def testStatus (name : Octets) (arguments : List Octets) : Step Nat := do
  let texts : Except Octets (List Octets) :=
    if name.head? = some '[' then
      if arguments.getLast? = some [']'] then .ok arguments.dropLast
      else .error "missing ]".toList
    else .ok arguments
  match texts with
  | .error message =>
    Step.complain message
    return 2
  | .ok texts =>
    match ← (Test.condition 3 false texts).run with
    | .ok value => return if value then 0 else 1
    | .error message =>
      Step.complain message
      return 2

end LintRepair.Shell.Utility
