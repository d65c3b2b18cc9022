/-
This file evaluates the arithmetic of the shell.
-/

import LintRepair.Shell.Integer
import LintRepair.Shell.State

namespace LintRepair.Shell.Arithmetic

inductive Token where
  | number (value : Int)
  | name (name : Octets)
  | operator (text : Octets)
  | unknown
deriving DecidableEq

/-- The operators, those first that begin with others. -/
def operators : List Octets :=
  ["<<=", ">>=", "&&", "||", "<<", ">>", "<=", ">=", "==", "!=", "+=", "-=", "*=", "/=", "%=",
    "&=", "^=", "|=", "+", "-", "*", "/", "%", "<", ">", "&", "^", "|", "!", "~", "?", ":", "=",
    "(", ")"].map String.toList

/-- The tokens of an expression. Every round passes at least one character. -/
def tokens : Nat → Octets → List Token
  | 0, _ => []
  | rounds + 1, text =>
    match text.dropWhile fun octet => isBlank octet || octet == '\n' with
    | [] => []
    | octet :: rest =>
      if octet.isDigit then
        let reading := readInteger 0 (octet :: rest)
        .number reading.value :: tokens rounds reading.behind
      else if isNameStart octet then
        let name := (octet :: rest).takeWhile isNameCharacter
        .name name :: tokens rounds ((octet :: rest).drop name.length)
      else
        match operators.find? fun operator => operator.isPrefixOf (octet :: rest) with
        | some operator =>
          .operator operator :: tokens rounds ((octet :: rest).drop operator.length)
        | none => [.unknown]

/-- How loosely an operator with two operands binds. -/
def looseness? (operator : Octets) : Option Nat :=
  match String.ofList operator with
  | "*" | "/" | "%" => some 0
  | "+" | "-" => some 1
  | "<<" | ">>" => some 2
  | "<" | "<=" | ">" | ">=" => some 3
  | "==" | "!=" => some 4
  | "&" => some 5
  | "^" => some 6
  | "|" => some 7
  | _ => none

def ofBool (value : Bool) : Int :=
  if value then 1 else 0

/-- The 64 bits of an integer as a natural number. -/
def bits (value : Int) : Nat :=
  (value % 18446744073709551616).toNat

def shiftCount (value : Int) : Nat :=
  (value % 64).toNat

/-- The value of an operator. A division by zero has none. -/
def result? (operator : Octets) (left right : Int) : Option Int :=
  match String.ofList operator with
  | "*" => some (wrapped (left * right))
  | "/" => if right = 0 then none else some (wrapped (left.tdiv right))
  | "%" => if right = 0 then none else some (wrapped (left.tmod right))
  | "+" => some (wrapped (left + right))
  | "-" => some (wrapped (left - right))
  | "<<" => some (wrapped (left * (Nat.shiftLeft 1 (shiftCount right) : Nat)))
  | ">>" => some (left.fdiv (Nat.shiftLeft 1 (shiftCount right) : Nat))
  | "<" => some (ofBool (left < right))
  | "<=" => some (ofBool (left ≤ right))
  | ">" => some (ofBool (right < left))
  | ">=" => some (ofBool (right ≤ left))
  | "==" => some (ofBool (left == right))
  | "!=" => some (ofBool (left != right))
  | "&" => some (wrapped (Nat.land (bits left) (bits right) : Nat))
  | "^" => some (wrapped (Nat.xor (bits left) (bits right) : Nat))
  | _ => some (wrapped (Nat.lor (bits left) (bits right) : Nat))

/-- The expression for errors and the tokens ahead. -/
structure Evaluation where
  expression : Octets
  ahead : List Token

abbrev Evaluating := StateT Evaluation Step

def failure {Value : Type} (message : String) : Evaluating Value := do
  let expression := (← get).expression
  Step.fail ("arithmetic expression: ".toList ++ message.toList ++ ": \"".toList ++ expression ++
    ['"'])

def next : Evaluating (Option Token) := do
  let evaluation ← get
  set { evaluation with ahead := evaluation.ahead.tail }
  return evaluation.ahead.head?

def isNext (operator : String) : Evaluating Bool := do
  return (← get).ahead.head? = some (.operator operator.toList)

def compute (operator : Octets) (left right : Int) : Evaluating Int :=
  match result? operator left right with
  | some value => return value
  | none => failure "division by zero"

/-- The number that a variable holds. Without a value it is zero. -/
def variableValue (name : Octets) : Evaluating Int := do
  let text := ((← getThe State).value? name).getD []
  let reading := readInteger 0 text
  let behind := if reading.behind.length = text.length then text.dropWhile isSpace else reading.behind
  if reading.isTooLarge || !(behind.all isSpace) then
    Step.fail ("Illegal number: ".toList ++ text)
  else return reading.value

/-- The operator of an assignment with the operation that it makes, if it makes one. -/
def assignment? (token : Option Token) : Option (Option Octets) :=
  match token with
  | some (.operator ['=']) => some none
  | some (.operator text) =>
    if text.getLast? = some '=' && (looseness? text.dropLast).isSome && (looseness? text).isNone then
      some (some text.dropLast)
    else none
  | _ => none

mutual

/-- Where `isSkipped` holds, nothing is computed and nothing assigned. -/
def assignment : Nat → Bool → Evaluating Int
  | 0, _ => failure "expecting primary"
  | fuel + 1, isSkipped => do
    match (← get).ahead with
    | .name name :: operator :: _ =>
      match assignment? (some operator) with
      | none => condition fuel isSkipped
      | some operation =>
        let _ ← next
        let _ ← next
        let value ← assignment fuel isSkipped
        if isSkipped then return value
        else
          let result ←
            match operation with
            | none => pure value
            | some operator => compute operator (← variableValue name) value
          Step.assign name (integer result)
          return result
    | _ => condition fuel isSkipped

def condition : Nat → Bool → Evaluating Int
  | 0, _ => failure "expecting primary"
  | fuel + 1, isSkipped => do
    let test ← disjunction fuel isSkipped
    if ← isNext "?" then
      let _ ← next
      let yes ← assignment fuel (isSkipped || test = 0)
      unless ← isNext ":" do
        let _ ← (failure "expecting ':'" : Evaluating Unit)
      let _ ← next
      let no ← condition fuel (isSkipped || test ≠ 0)
      return if test ≠ 0 then yes else no
    else return test

def disjunction : Nat → Bool → Evaluating Int
  | 0, _ => failure "expecting primary"
  | fuel + 1, isSkipped => do
    let left ← conjunction fuel isSkipped
    if ← isNext "||" then
      let _ ← next
      let right ← disjunction fuel (isSkipped || left ≠ 0)
      return ofBool (left ≠ 0 || right ≠ 0)
    else return left

def conjunction : Nat → Bool → Evaluating Int
  | 0, _ => failure "expecting primary"
  | fuel + 1, isSkipped => do
    let left ← binary fuel isSkipped 8
    if ← isNext "&&" then
      let _ ← next
      let right ← conjunction fuel (isSkipped || left = 0)
      return ofBool (left ≠ 0 && right ≠ 0)
    else return left

/-- Operands joined by operators that bind more tightly than a limit. -/
def binary : Nat → Bool → Nat → Evaluating Int
  | 0, _, _ => failure "expecting primary"
  | fuel + 1, isSkipped, limit => do
    let left ← primary fuel isSkipped
    binaryBehind fuel isSkipped limit left

def binaryBehind : Nat → Bool → Nat → Int → Evaluating Int
  | 0, _, _, _ => failure "expecting primary"
  | fuel + 1, isSkipped, limit, left => do
    match (← get).ahead.head? with
    | some (.operator operator) =>
      match looseness? operator with
      | none => return left
      | some looseness =>
        if limit ≤ looseness then return left
        else
          let _ ← next
          let right ← binary fuel isSkipped looseness
          let value ← if isSkipped then pure right else compute operator left right
          binaryBehind fuel isSkipped limit value
    | _ => return left

def primary : Nat → Bool → Evaluating Int
  | 0, _ => failure "expecting primary"
  | fuel + 1, isSkipped => do
    match ← next with
    | some (.number value) => return value
    | some (.name name) => if isSkipped then return 0 else variableValue name
    | some (.operator ['(']) =>
      let value ← assignment fuel isSkipped
      unless ← isNext ")" do
        let _ ← (failure "expecting ')'" : Evaluating Unit)
      let _ ← next
      return value
    | some (.operator ['+']) => primary fuel isSkipped
    | some (.operator ['-']) => return wrapped (-(← primary fuel isSkipped))
    | some (.operator ['!']) => return ofBool ((← primary fuel isSkipped) = 0)
    | some (.operator ['~']) => return -(← primary fuel isSkipped) - 1
    | _ => failure "expecting primary"

end

/-- The value of an expression. -/
def evaluate (expression : Octets) : Step Int := do
  let fuel := 12 * expression.length + 64
  let evaluating : Evaluating Int := do
    let value ← assignment fuel false
    unless (← get).ahead.isEmpty do
      let _ ← (failure "expecting EOF" : Evaluating Unit)
    return value
  let (value, _) ← evaluating.run ⟨expression, tokens (expression.length + 1) expression⟩
  return value

end LintRepair.Shell.Arithmetic
