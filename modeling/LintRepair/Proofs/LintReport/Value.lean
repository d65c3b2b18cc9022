/-
This file follows the reader through whole values. A value that is passed over may have any form
and changes nothing.
-/

import LintRepair.LintReport.Reader
import LintRepair.Proofs.LintReport.Number

namespace LintRepair.LintReport

theorem isSpaceCharacter {character : Char} :
    isSpace character ↔ character ∈ [' ', '\n', '\t', '\r'] := by
  simp [isSpace, or_assoc]

namespace Phase

/-- No token is open. -/
def IsBetween : Phase → Prop
  | string _ _ | number _ | literal _ _ => False
  | value | itemOrEnd | keyOrEnd | key | colon | separator | finished => True

def BeforeValue (phase : Phase) : Prop :=
  phase = value ∨ phase = itemOrEnd

def BeforeKey (phase : Phase) : Prop :=
  phase = key ∨ phase = keyOrEnd

theorem BeforeValue.isBetween {phase : Phase} (before : phase.BeforeValue) : phase.IsBetween := by
  rcases before with rfl | rfl <;> trivial

theorem BeforeKey.isBetween {phase : Phase} (before : phase.BeforeKey) : phase.IsBetween := by
  rcases before with rfl | rfl <;> trivial

end Phase

namespace State

variable {place : Place} {ignored : List Bracket} {phase : Phase} {state between after : State}

theorem feedAllAppend (state : State) (first second : List Char) :
    state.feedAll (first ++ second) =
      (state.feedAll first).bind fun between => between.feedAll second := by
  induction first generalizing state with
  | nil => rfl
  | cons character first inductionHypothesis =>
    rw [List.cons_append, feedAll, feedAll]
    cases state.feed character with
    | error failure => rfl
    | ok next => exact inductionHypothesis next

theorem feedAllCons {character : Char} (fed : state.feed character = .ok between)
    (text : List Char) : state.feedAll (character :: text) = between.feedAll text := by
  rw [feedAll, fed]
  rfl

theorem feedOfBetween (isBetween : state.phase.IsBetween) (character : Char) :
    state.feed character = state.feedBetween character := by
  obtain ⟨place, ignored, phase⟩ := state
  cases phase <;> first | rfl | cases isBetween

/-- White space between two tokens changes nothing. -/
theorem feedBlank (isBetween : state.phase.IsBetween) {blank : List Char} (isBlank : Blank blank)
    (text : List Char) : state.feedAll (blank ++ text) = state.feedAll text := by
  induction blank with
  | nil => rfl
  | cons character blank inductionHypothesis =>
    obtain ⟨space, isBlank⟩ := List.forall_mem_cons.mp isBlank
    have fed : state.feed character = .ok state := by
      rw [feedOfBetween isBetween]
      unfold feedBetween
      exact if_pos (isSpaceCharacter.mpr space)
    rw [List.cons_append, feedAllCons fed, inductionHypothesis isBlank]

/-- A text leads from one state to another, whatever comes behind its end. -/
def Reads (state : State) (text : List Char) (after : State) : Prop :=
  ∀ next rest, Delimits next →
    state.feedAll (text ++ next :: rest) = after.feedAll (next :: rest)

namespace Reads

theorem enter {character : Char} {text : List Char} (fed : state.feed character = .ok between)
    (reads : Reads between text after) : Reads state (character :: text) after := by
  intro next rest delimits
  rw [List.cons_append, feedAllCons fed, reads next rest delimits]

/-- One text behind another, with a delimiter between them. -/
theorem next {first second : List Char} {delimiter : Char} {opened : State}
    (reads : Reads state first between) (delimits : Delimits delimiter)
    (fed : between.feed delimiter = .ok opened) (onwards : Reads opened second after) :
    Reads state (first ++ delimiter :: second) after := by
  intro next rest delimitsBehind
  rw [List.append_assoc, List.cons_append, reads delimiter _ delimits, feedAllCons fed,
    onwards next rest delimitsBehind]

theorem close {text : List Char} {delimiter : Char} (reads : Reads state text between)
    (delimits : Delimits delimiter) (fed : between.feed delimiter = .ok after) :
    Reads state (text ++ [delimiter]) after :=
  reads.next delimits fed fun _ _ _ => rfl

theorem blank (state : State) (isBetween : state.phase.IsBetween) {blank : List Char}
    (isBlank : Blank blank) : Reads state blank state := by
  intro next rest _
  exact feedBlank isBetween isBlank _

theorem spaced {Form : List Char → Prop} {text : List Char} (form : Spaced Form text)
    (beforeBetween : state.phase.IsBetween) (afterBetween : after.phase.IsBetween)
    (reads : ∀ inside, Form inside → Reads state inside after) : Reads state text after := by
  obtain ⟨before, inside, behind, blankBefore, isForm, blankBehind, rfl⟩ := form
  intro next rest delimits
  rw [List.append_assoc, List.append_assoc, feedBlank beforeBetween blankBefore]
  -- What follows the value is the white space behind it, or else the delimiter.
  cases behind with
  | nil => exact reads inside isForm next rest delimits
  | cons character behind =>
    obtain ⟨space, -⟩ := List.forall_mem_cons.mp blankBehind
    have spaceDelimits : Delimits character := by
      simp only [List.mem_cons, List.not_mem_nil, or_false] at space
      rcases space with rfl | rfl | rfl | rfl <;> simp [Delimits]
    rw [List.cons_append, reads inside isForm character _ spaceDelimits, ← List.cons_append,
      feedBlank afterBetween blankBehind]

end Reads

section Tokens

theorem feedString {kept asKey : Bool} {quoted ended : QuotedText} {text : List Char}
    (keeps : (⟨place, ignored, phase⟩ : State).keepsString asKey = kept)
    (leads : Leads (QuotedText.step kept) quoted text ended) (rest : List Char) :
    feedAll ⟨place, ignored, .string asKey quoted⟩ (text ++ rest) =
      feedAll ⟨place, ignored, .string asKey ended⟩ rest := by
  induction text generalizing quoted with
  | nil => rw [show quoted = ended from leads, List.nil_append]
  | cons character text inductionHypothesis =>
    obtain ⟨next, stepped, leads⟩ := leads
    have fed : feed ⟨place, ignored, .string asKey quoted⟩ character =
        .ok ⟨place, ignored, .string asKey next⟩ := by
      have keeps : (⟨place, ignored, .string asKey quoted⟩ : State).keepsString asKey = kept := keeps
      simp only [feed, keeps, stepped]
      rfl
    rw [List.cons_append, feedAllCons fed, inductionHypothesis leads]

theorem feedNumber {number ended : Number} {text : List Char}
    (leads : Leads Number.step number text ended) (rest : List Char) :
    feedAll ⟨place, ignored, .number number⟩ (text ++ rest) =
      feedAll ⟨place, ignored, .number ended⟩ rest := by
  induction text generalizing number with
  | nil => rw [show number = ended from leads, List.nil_append]
  | cons character text inductionHypothesis =>
    obtain ⟨next, stepped, leads⟩ := leads
    have fed : feed ⟨place, ignored, .number number⟩ character =
        .ok ⟨place, ignored, .number next⟩ := by
      simp only [feed, stepped]
      rfl
    rw [List.cons_append, feedAllCons fed, inductionHypothesis leads]

/-- The first character of a value, unless the array around it ends. -/
theorem feedValue (before : phase.BeforeValue) {character : Char}
    (notSpace : isSpace character = false) (notEnd : character ≠ ']') :
    feed ⟨place, ignored, phase⟩ character = beginValue ⟨place, ignored, phase⟩ character := by
  rw [feedOfBetween before.isBetween]
  rcases before with rfl | rfl <;> simp [feedBetween, notSpace]

theorem feedQuote (before : phase.BeforeKey) :
    feed ⟨place, ignored, phase⟩ '"' = .ok ⟨place, ignored, .string true QuotedText.start⟩ := by
  rcases before with rfl | rfl <;> rfl

/-- A whole string from its first quotation mark to its last. -/
theorem readsQuoted {kept asKey : Bool} {inside reversed : List Char}
    (begins : state.feed '"' = .ok ⟨place, ignored, .string asKey QuotedText.start⟩)
    (keeps : (⟨place, ignored, .value⟩ : State).keepsString asKey = kept)
    (leads : Leads (QuotedText.step kept) QuotedText.start inside ⟨reversed, .plain⟩)
    (accepts : (if asKey then
        acceptKey ⟨place, ignored, .value⟩ (String.ofList reversed.reverse)
      else acceptScalar ⟨place, ignored, .value⟩ (.text (String.ofList reversed.reverse))) =
        .ok after) :
    Reads state ('"' :: inside ++ ['"']) after := by
  have ends : feed ⟨place, ignored, .string asKey ⟨reversed, .plain⟩⟩ '"' = .ok after := by
    rw [← accepts]
    rfl
  intro next rest _
  rw [List.cons_append, List.cons_append, feedAllCons begins, List.append_assoc,
    feedString keeps leads, List.singleton_append, feedAllCons ends]

theorem readsString {value : String} {text : List Char} (form : StringText value text)
    (before : phase.BeforeValue) (kept : (⟨place, ignored, .value⟩ : State).isKept)
    (accepts : acceptScalar ⟨place, ignored, .value⟩ (.text value) = .ok after) :
    Reads ⟨place, ignored, phase⟩ text after := by
  obtain ⟨inside, escaped, rfl⟩ := form
  refine readsQuoted (feedValue before rfl (by decide)) kept (QuotedText.escapedLeads escaped) ?_
  simpa using accepts

theorem readsKey {name : String} {text : List Char} (form : StringText name text)
    (before : phase.BeforeKey) {named : Place} (accepts : place.withKey name = .ok named) :
    Reads ⟨place, [], phase⟩ text ⟨named, [], .colon⟩ := by
  obtain ⟨inside, escaped, rfl⟩ := form
  refine readsQuoted (feedQuote before) rfl (QuotedText.escapedLeads escaped) ?_
  simp [acceptKey, accepts, Except.map]

/-- A number is judged at the delimiter behind it. -/
theorem readsNumber {number : Number} {text : List Char} (reads : Number.Reads text number)
    (complete : number.isComplete) (before : phase.BeforeValue)
    (accepts : acceptNumber ⟨place, ignored, .value⟩ number = .ok after)
    (afterBetween : after.phase.IsBetween) : Reads ⟨place, ignored, phase⟩ text after := by
  obtain ⟨first, others, initial, rfl, starts, leads⟩ := reads
  have begins : feed ⟨place, ignored, phase⟩ first = .ok ⟨place, ignored, .number initial⟩ := by
    have notOther :
        first ∉ [' ', '\n', '\t', '\r', ']', '[', '{', '"', 't', 'f', 'n'] := by
      intro inside
      have isNumberCharacter := Number.startCharacter starts
      simp only [List.mem_cons, List.not_mem_nil, or_false] at inside
      rcases inside with rfl | rfl | rfl | rfl | rfl | rfl | rfl | rfl | rfl | rfl | rfl <;>
        exact absurd isNumberCharacter (by decide)
    simp only [List.mem_cons, List.not_mem_nil, or_false, not_or] at notOther
    rw [feedValue before (by simp [isSpace, notOther]) (by simp [notOther])]
    simp [beginValue, notOther, starts]
  intro next rest delimits
  have ends : feed ⟨place, ignored, .number number⟩ next = after.feed next := by
    rw [feedOfBetween afterBetween]
    simp only [feed, Number.stepDelimiter complete delimits]
    change (acceptNumber ⟨place, ignored, .value⟩ number >>= _) = _
    rw [accepts]
    rfl
  rw [List.cons_append, feedAllCons begins, feedNumber leads, feedAll, ends, feedAll]

theorem readsNumeral {value : Nat} {text : List Char} (form : NumeralText value text)
    (inRange : value < Text.wordLimit) (before : phase.BeforeValue)
    (accepts : acceptScalar ⟨place, ignored, .value⟩ (.natural value) = .ok after)
    (afterBetween : after.phase.IsBetween) : Reads ⟨place, ignored, phase⟩ text after := by
  obtain ⟨number, reads, complete, natural⟩ := Number.numeralReads inRange
  rw [← show text = Nat.toDigits 10 value from form] at reads
  refine readsNumber reads complete before ?_ afterBetween
  rw [acceptNumber, natural]
  exact accepts

/-- A literal is known by its first character and ends with its last one. -/
theorem readsWord {first : Char} {others : List Char} {value : Scalar}
    (begins : state.feed first = .ok ⟨place, ignored, .literal others value⟩)
    (notEmpty : others ≠ [])
    (accepts : acceptScalar ⟨place, ignored, .value⟩ value = .ok after) :
    Reads state (first :: others) after := by
  induction others generalizing state first with
  | nil => cases notEmpty rfl
  | cons character others inductionHypothesis =>
    refine .enter begins ?_
    cases others with
    | nil =>
      have ends : feed ⟨place, ignored, .literal [character] value⟩ character = .ok after := by
        simp only [feed, if_true, List.isEmpty_nil]
        exact accepts
      exact .enter ends fun _ _ _ => rfl
    | cons following others =>
      exact inductionHypothesis (by simp [feed]) (by simp)

theorem readsNull (before : phase.BeforeValue)
    (accepts : acceptScalar ⟨place, ignored, .value⟩ .null = .ok after) :
    Reads ⟨place, ignored, phase⟩ "null".toList after :=
  readsWord (feedValue before rfl (by decide)) (by decide) accepts

end Tokens

/-- The values that come next are passed over. -/
structure PassesOver (place : Place) (ignored : List Bracket) : Prop where
  unkept : (⟨place, ignored, .value⟩ : State).isKept = false
  incomplete : ∀ reports, place ≠ .complete reports

namespace PassesOver

variable (passes : PassesOver place ignored)

include passes

theorem inside (bracket : Bracket) : PassesOver place (bracket :: ignored) :=
  ⟨rfl, passes.incomplete⟩

theorem afterValue (phase : Phase) : State.afterValue ⟨place, ignored, phase⟩ place =
    ⟨place, ignored, .separator⟩ := by
  cases place with
  | complete reports => cases passes.incomplete reports rfl
  | outside | reports | report | messages | message => rfl

theorem acceptsScalar (value : Scalar) : acceptScalar ⟨place, ignored, .value⟩ value =
    .ok ⟨place, ignored, .separator⟩ := by
  rw [acceptScalar, passes.unkept, passes.afterValue]
  rfl

theorem acceptsNumber (number : Number) : acceptNumber ⟨place, ignored, .value⟩ number =
    .ok ⟨place, ignored, .separator⟩ := by
  unfold acceptNumber
  split
  · exact passes.acceptsScalar _
  · simp only [passes.unkept, Bool.false_and, Bool.false_eq_true, if_false]
    exact passes.acceptsScalar _

theorem opens (before : phase.BeforeValue) :
    feed ⟨place, ignored, phase⟩ '[' = .ok ⟨place, .square :: ignored, .itemOrEnd⟩ ∧
      feed ⟨place, ignored, phase⟩ '{' = .ok ⟨place, .curly :: ignored, .keyOrEnd⟩ := by
  have unkept : (⟨place, ignored, phase⟩ : State).isKept = false := passes.unkept
  rw [feedValue before rfl (by decide), feedValue before rfl (by decide)]
  simp [beginValue, unkept]

theorem closesSquare (last : phase = .itemOrEnd ∨ phase = .separator) :
    feed ⟨place, .square :: ignored, phase⟩ ']' = .ok ⟨place, ignored, .separator⟩ := by
  rw [← passes.afterValue phase]
  rcases last with rfl | rfl <;> rfl

theorem closesCurly (last : phase = .keyOrEnd ∨ phase = .separator) :
    feed ⟨place, .curly :: ignored, phase⟩ '}' = .ok ⟨place, ignored, .separator⟩ := by
  rw [← passes.afterValue phase]
  rcases last with rfl | rfl <;> rfl

theorem readsLiteral {text : List Char}
    (literal : text ∈ ["true".toList, "false".toList, "null".toList])
    (before : phase.BeforeValue) :
    Reads ⟨place, ignored, phase⟩ text ⟨place, ignored, .separator⟩ := by
  simp only [List.mem_cons, List.not_mem_nil, or_false] at literal
  rcases literal with rfl | rfl | rfl
  · exact readsWord (feedValue before rfl (by decide)) (by decide) (passes.acceptsScalar .boolean)
  · exact readsWord (feedValue before rfl (by decide)) (by decide) (passes.acceptsScalar .boolean)
  · exact readsNull before (passes.acceptsScalar .null)

theorem readsAnyString {text : List Char} (form : AnyString text) (before : phase.BeforeValue) :
    Reads ⟨place, ignored, phase⟩ text ⟨place, ignored, .separator⟩ := by
  obtain ⟨inside, isInside, rfl⟩ := form
  obtain ⟨reversed, leads⟩ := QuotedText.insideLeads isInside []
  exact readsQuoted (feedValue before rfl (by decide)) passes.unkept leads
    (passes.acceptsScalar _)

end PassesOver

/-- Passing over a form of JSON's grammar leads behind it. Its parts stand inside a bracket. -/
def PassesForm (place : Place) : Form → List Char → Prop
  | .value, text | .element, text => ∀ ignored phase, PassesOver place ignored →
      phase.BeforeValue → Reads ⟨place, ignored, phase⟩ text ⟨place, ignored, .separator⟩
  | .elements, text => ∀ ignored phase, PassesOver place ignored → phase.BeforeValue →
      Reads ⟨place, .square :: ignored, phase⟩ text ⟨place, .square :: ignored, .separator⟩
  | .member, text | .members, text => ∀ ignored phase, PassesOver place ignored →
      phase.BeforeKey →
        Reads ⟨place, .curly :: ignored, phase⟩ text ⟨place, .curly :: ignored, .separator⟩

theorem passesJson {form : Form} {text : List Char} (json : Json form text) :
    PassesForm place form text := by
  induction json with
  | literal isLiteral => exact fun _ _ passes before => passes.readsLiteral isLiteral before
  | string isString => exact fun _ _ passes before => passes.readsAnyString isString before
  | number isNumber =>
    intro ignored phase passes before
    obtain ⟨number, reads, complete⟩ := Number.anyReads isNumber
    exact readsNumber reads complete before (passes.acceptsNumber number) trivial
  | emptyArray isBlank =>
    intro ignored phase passes before
    have blank := Reads.blank ⟨place, .square :: ignored, .itemOrEnd⟩ trivial isBlank
    exact .enter (passes.opens before).1
      (blank.close (by decide) (passes.closesSquare (.inl rfl)))
  | array _ inside =>
    intro ignored phase passes before
    exact .enter (passes.opens before).1
      ((inside ignored .itemOrEnd passes (.inr rfl)).close (by decide)
        (passes.closesSquare (.inr rfl)))
  | emptyObject isBlank =>
    intro ignored phase passes before
    have blank := Reads.blank ⟨place, .curly :: ignored, .keyOrEnd⟩ trivial isBlank
    exact .enter (passes.opens before).2
      (blank.close (by decide) (passes.closesCurly (.inl rfl)))
  | object _ inside =>
    intro ignored phase passes before
    exact .enter (passes.opens before).2
      ((inside ignored .keyOrEnd passes (.inr rfl)).close (by decide)
        (passes.closesCurly (.inr rfl)))
  | @element before inside behind blankBefore _ blankBehind value =>
    intro ignored phase passes beforeValue
    have spaced : Spaced (· = inside) (before ++ inside ++ behind) :=
      ⟨before, inside, behind, blankBefore, rfl, blankBehind, rfl⟩
    refine .spaced spaced beforeValue.isBetween trivial ?_
    rintro _ rfl
    exact value ignored phase passes beforeValue
  | lastElement _ element =>
    intro ignored phase passes before
    exact element _ phase (passes.inside .square) before
  | nextElement _ _ element elements =>
    intro ignored phase passes before
    exact (element _ phase (passes.inside .square) before).next (by decide) rfl
      (elements ignored .value passes (.inl rfl))
  | @member key text isKey _ element =>
    intro ignored phase passes before
    have readsKey : Reads ⟨place, .curly :: ignored, phase⟩ key
        ⟨place, .curly :: ignored, .colon⟩ := by
      refine .spaced isKey before.isBetween trivial ?_
      rintro _ ⟨inside, isInside, rfl⟩
      obtain ⟨reversed, leads⟩ := QuotedText.insideLeads isInside []
      exact readsQuoted (feedQuote before) rfl leads rfl
    exact readsKey.next (by decide) rfl (element _ .value (passes.inside .curly) (.inl rfl))
  | lastMember _ member => exact member
  | nextMember _ _ member members =>
    intro ignored phase passes before
    exact (member ignored phase passes before).next (by decide) rfl
      (members ignored .key passes (.inl rfl))

end State

end LintRepair.LintReport
