/-
This file shows that a message about an unread name is read as it is written, and that whatever is
read is written so. The path of a message may hold parts of other messages.
-/

import LintRepair.CompilerOutput
import LintRepair.Proofs.Text.Numeral
import LintRepair.Proofs.Text.Run

namespace LintRepair.CompilerOutput

open Text Unicode

namespace UnreadName

/-- The sentence that is kept as the message of a diagnostic. -/
def message (unread : UnreadName) : List Char :=
  unread.code ++ (": '".toList ++ (unread.name ++ unreadEnding))

/-- What is written behind the opening parenthesis. -/
def enclosed (unread : UnreadName) : List Char :=
  unread.line ++ ',' :: (unread.column ++ ("): error ".toList ++ unread.message))

/-- What is written behind the path. -/
def text (unread : UnreadName) : List Char :=
  '(' :: unread.enclosed

/-- The numerals are digits of any script, the code is made of letters and digits, and the name is
a word. -/
structure Formed (unread : UnreadName) : Prop where
  line : unread.line ≠ [] ∧ ∀ character ∈ unread.line, isDecimalDigit character
  column : unread.column ≠ [] ∧ ∀ character ∈ unread.column, isDecimalDigit character
  code : ∃ letters digits, letters ≠ [] ∧ (∀ character ∈ letters, character.isAlpha) ∧
    digits ≠ [] ∧ (∀ character ∈ digits, isDecimalDigit character) ∧ unread.code = letters ++ digits
  name : unread.name ≠ [] ∧ ∀ character ∈ unread.name, isWordCharacter character

end UnreadName

/-- A text goes on with a message where its path ends. -/
def GoesOn (text : List Char) : Prop :=
  ∃ unread trailing, UnreadName.Formed unread ∧ text = unread.text ++ trailing

theorem code_eq_some_iff {text code behind : List Char} :
    code? text = some (code, behind) ↔ behind.head?.any isDecimalDigit = false ∧
      (∃ letters digits, letters ≠ [] ∧ (∀ character ∈ letters, character.isAlpha) ∧
        digits ≠ [] ∧ (∀ character ∈ digits, isDecimalDigit character) ∧
        code = letters ++ digits) ∧ text = code ++ behind := by
  simp only [code?, Option.bind_eq_bind, Option.bind_eq_some_iff, Option.pure_def,
    Option.some.injEq, Prod.mk.injEq, Prod.exists, run_eq_some_iff]
  constructor
  · rintro ⟨letters, _, ⟨lettersFilled, areLetters, -, rfl⟩, digits, _,
      ⟨digitsFilled, areDigits, stops, rfl⟩, rfl, rfl⟩
    exact ⟨stops, ⟨letters, digits, lettersFilled, areLetters, digitsFilled, areDigits, rfl⟩,
      by simp⟩
  · rintro ⟨stops, ⟨letters, digits, lettersFilled, areLetters, digitsFilled, areDigits, rfl⟩, rfl⟩
    have lettersStop : (digits ++ behind).head?.any Char.isAlpha = false :=
      stopsBefore (fun character inside => digitNotLetter (areDigits character inside))
        fun empty => absurd empty digitsFilled
    exact ⟨letters, digits ++ behind, ⟨lettersFilled, areLetters, lettersStop, by simp⟩, digits,
      behind, ⟨digitsFilled, areDigits, stops, rfl⟩, rfl, rfl⟩

theorem takesUnreadName {text : List Char} {unread : UnreadName}
    (read : unreadName? text = some unread) :
    unread.Formed ∧ ∃ trailing, text = unread.text ++ trailing := by
  simp only [unreadName?, Option.bind_eq_bind, Option.bind_eq_some_iff, Option.pure_def,
    Option.some.injEq, Prod.exists, literal_eq_some_iff, run_eq_some_iff, word?,
    code_eq_some_iff] at read
  obtain ⟨_, rfl, line, _, ⟨lineFilled, lineDigits, -, rfl⟩, _, rfl, column, _,
    ⟨columnFilled, columnDigits, -, rfl⟩, _, rfl, code, _, ⟨-, codeForm, rfl⟩, _, rfl, name, _,
    ⟨nameFilled, nameWord, -, rfl⟩, trailing, rfl, rfl⟩ := read
  exact ⟨⟨⟨lineFilled, lineDigits⟩, ⟨columnFilled, columnDigits⟩, codeForm,
    ⟨nameFilled, nameWord⟩⟩, trailing,
    by simp [UnreadName.text, UnreadName.enclosed, UnreadName.message]⟩

theorem readsUnreadName {unread : UnreadName} (formed : unread.Formed) (trailing : List Char) :
    unreadName? (unread.text ++ trailing) = some unread := by
  have whole : unread.text ++ trailing = ['('] ++ (unread.line ++ ([','] ++ (unread.column ++
      ("): error ".toList ++ (unread.code ++ (": '".toList ++ (unread.name ++
        (unreadEnding ++ trailing)))))))) := by
    simp [UnreadName.text, UnreadName.enclosed, UnreadName.message]
  have readLine : ∀ rest, run? isDecimalDigit (unread.line ++ ([','] ++ rest)) =
      some (unread.line, [','] ++ rest) :=
    fun rest => readsRun formed.line.1 formed.line.2 rfl
  have readColumn : ∀ rest, run? isDecimalDigit (unread.column ++ ("): error ".toList ++ rest)) =
      some (unread.column, "): error ".toList ++ rest) :=
    fun rest => readsRun formed.column.1 formed.column.2 rfl
  have readCode : ∀ rest, code? (unread.code ++ (": '".toList ++ rest)) =
      some (unread.code, ": '".toList ++ rest) :=
    fun rest => code_eq_some_iff.mpr ⟨rfl, formed.code, rfl⟩
  have readName : ∀ rest, word? (unread.name ++ (unreadEnding ++ rest)) =
      some (unread.name, unreadEnding ++ rest) :=
    fun rest => readsRun formed.name.1 formed.name.2 rfl
  simp only [unreadName?, whole, literalAppend, readLine, readColumn, readCode, readName,
    Option.bind_eq_bind, Option.bind_some, Option.pure_def]

theorem unreadName_eq_none_iff {text : List Char} : unreadName? text = none ↔ ¬ GoesOn text := by
  constructor
  · rintro nothing ⟨unread, trailing, formed, rfl⟩
    rw [readsUnreadName formed] at nothing
    cases nothing
  · intro stops
    cases read : unreadName? text with
    | none => rfl
    | some unread =>
      obtain ⟨formed, trailing, whole⟩ := takesUnreadName read
      exact absurd ⟨unread, trailing, formed, whole⟩ stops

/-- No message goes on at a place behind the first character of a path that stands before a text. -/
def NoEarlier (passed front behind : List Char) : Prop :=
  ∀ first second, front = first ++ second → second ≠ [] → passed.reverse ++ first ≠ [] →
    ¬ GoesOn (second ++ behind)

theorem takesPath {passed text path : List Char} {unread : UnreadName}
    (read : locate? passed text = some (path, unread)) : path ≠ [] ∧ ∃ front behind,
      text = front ++ behind ∧ path = passed.reverse ++ front ∧ '\n' ∉ front ∧
        unreadName? behind = some unread ∧ NoEarlier passed front behind := by
  induction text generalizing passed with
  | nil => cases read
  | cons character text inductionHypothesis =>
    rw [locate?] at read
    split at read
    · next found here =>
      cases read
      have passedFilled : passed ≠ [] := by
        rintro rfl
        cases here
      rw [if_neg (by simpa using passedFilled)] at here
      refine ⟨by simpa using passedFilled, [], character :: text, rfl, by simp, by simp, here, ?_⟩
      intro first second whole secondFilled
      exact absurd (List.append_eq_nil_iff.mp whole.symm).2 secondFilled
    · next nothing =>
      split at read
      · cases read
      · next notLineFeed =>
        obtain ⟨pathFilled, front, behind, rfl, rfl, oneLine, found, nothingBefore⟩ :=
          inductionHypothesis read
        refine ⟨pathFilled, character :: front, behind, rfl, by simp, ?_, found, ?_⟩
        · simpa [Ne.symm notLineFeed] using oneLine
        · intro first second whole secondFilled firstFilled
          cases first with
          | nil =>
            have passedFilled : ¬ passed.isEmpty := by simpa using firstFilled
            rw [if_neg passedFilled] at nothing
            rw [← whole.trans (List.nil_append second)]
            exact unreadName_eq_none_iff.mp nothing
          | cons other first =>
            obtain ⟨rfl, rest⟩ := List.cons_eq_cons.mp whole
            exact nothingBefore first second rest secondFilled (by simp)

theorem readsPath {passed front behind : List Char} {unread : UnreadName}
    (filled : passed.reverse ++ front ≠ []) (oneLine : '\n' ∉ front)
    (found : unreadName? behind = some unread)
    (nothingBefore : NoEarlier passed front behind) :
    locate? passed (front ++ behind) = some (passed.reverse ++ front, unread) := by
  induction front generalizing passed with
  | nil =>
    obtain ⟨first, rest, rfl⟩ : ∃ first rest, behind = first :: rest := by
      cases behind with
      | nil => cases found
      | cons first rest => exact ⟨first, rest, rfl⟩
    have passedFilled : ¬ passed.isEmpty := by simpa using filled
    rw [List.nil_append, locate?, if_neg passedFilled, found, List.append_nil]
  | cons character front inductionHypothesis =>
    obtain ⟨notLineFeed, restOneLine⟩ := not_or.mp (List.mem_cons.not.mp oneLine)
    have nothing : (if passed.isEmpty then none else unreadName? (character :: (front ++ behind))) =
        none := by
      split
      · rfl
      · next passedFilled =>
        exact unreadName_eq_none_iff.mpr (nothingBefore [] (character :: front) rfl (by simp)
          (by simpa using passedFilled))
    rw [List.cons_append, locate?, nothing]
    simp only
    rw [if_neg (Ne.symm notLineFeed), inductionHypothesis (by simp) restOneLine]
    · simp
    · intro first second whole secondFilled _
      exact nothingBefore (character :: first) second (by rw [whole, List.cons_append])
        secondFilled (by simp)

/-- A text is a message that tells what a diagnostic holds. The path is the shortest part behind
which a message goes on. A column that is no number of 64 bits is left out. -/
structure Tells (text : List Char) (unread : UnreadName) (diagnostic : Diagnostic) : Prop where
  formed : unread.Formed
  whole : ∃ trailing, text = diagnostic.file.spelling.toList ++ (unread.text ++ trailing)
  pathFilled : diagnostic.file.spelling.toList ≠ []
  pathOneLine : '\n' ∉ diagnostic.file.spelling.toList
  shortest : ∀ shorter rest, text = shorter ++ rest → shorter ≠ [] →
    shorter.length < diagnostic.file.spelling.toList.length → ¬ GoesOn rest
  line : (∀ digit ∈ unread.line, digit.isDigit) ∧ numeralValue unread.line = diagnostic.line ∧
    diagnostic.line < wordLimit
  column : diagnostic.column =
    if (∀ digit ∈ unread.column, digit.isDigit) ∧ numeralValue unread.column < wordLimit then
      some (numeralValue unread.column)
    else none
  rule : diagnostic.rule = unusedParameterRule
  message : diagnostic.message.toList = unread.message
  symbol : diagnostic.symbol = some (String.ofList unread.name)

theorem columnNumeral {digits : List Char} (filled : digits ≠ []) : numeral? wordLimit digits =
    if (∀ digit ∈ digits, digit.isDigit) ∧ numeralValue digits < wordLimit then
      some (numeralValue digits)
    else none := by
  split
  · next isNumber => exact numeral_eq_some_iff.mpr ⟨filled, isNumber.1, rfl, isNumber.2⟩
  · next noNumber =>
    cases read : numeral? wordLimit digits with
    | none => rfl
    | some value =>
      obtain ⟨-, areDigits, rfl, inRange⟩ := numeral_eq_some_iff.mp read
      exact absurd ⟨areDigits, inRange⟩ noNumber

theorem diagnosticTells {text : List Char} {diagnostic : Diagnostic}
    (read : diagnostic? text = some diagnostic) : ∃ unread, Tells text unread diagnostic := by
  simp only [diagnostic?, Option.bind_eq_bind, Option.bind_eq_some_iff, Option.pure_def,
    Option.some.injEq, Prod.exists] at read
  obtain ⟨path, unread, located, line, lineRead, rfl⟩ := read
  obtain ⟨pathFilled, front, behind, rfl, rfl, oneLine, found, noEarlier⟩ := takesPath located
  obtain ⟨formed, trailing, rfl⟩ := takesUnreadName found
  obtain ⟨-, lineDigits, lineValue, lineInRange⟩ := numeral_eq_some_iff.mp lineRead
  refine ⟨unread, formed, ⟨trailing, by simp⟩, by simpa using pathFilled, by simpa using oneLine,
    ?_, ⟨lineDigits, lineValue, lineInRange⟩, columnNumeral formed.column.1, rfl,
    by simp [UnreadName.message], rfl⟩
  intro shorter rest whole shorterFilled isShorter
  rw [String.toList_ofList] at isShorter
  rcases List.append_eq_append_iff.mp whole with ⟨more, rfl, -⟩ | ⟨second, rfl, rfl⟩
  · rw [List.length_append] at isShorter
    omega
  · apply noEarlier shorter second rfl _ (by simpa using shorterFilled)
    rintro rfl
    rw [List.append_nil] at isShorter
    exact Nat.lt_irrefl _ isShorter

theorem diagnosticLocated {text path : List Char} {unread : UnreadName} {line : Nat}
    (located : locate? [] text = some (path, unread))
    (lineRead : numeral? wordLimit unread.line = some line) :
    diagnostic? text = some {
      file := ⟨String.ofList path⟩
      line
      column := numeral? wordLimit unread.column
      rule := unusedParameterRule
      message := String.ofList unread.message
      symbol := some (String.ofList unread.name) } := by
  simp only [diagnostic?, located, lineRead, UnreadName.message, Option.bind_eq_bind,
    Option.bind_some, Option.pure_def, List.append_assoc]

theorem tellsDiagnostic {text : List Char} {unread : UnreadName} {diagnostic : Diagnostic}
    (tells : Tells text unread diagnostic) : diagnostic? text = some diagnostic := by
  obtain ⟨trailing, rfl⟩ := tells.whole
  have noEarlier : NoEarlier [] diagnostic.file.spelling.toList (unread.text ++ trailing) := by
    intro first second whole secondFilled firstFilled
    apply tells.shortest first _ (by rw [whole, List.append_assoc]) firstFilled
    have positive := List.length_pos_iff.mpr secondFilled
    rw [whole, List.length_append]
    omega
  have located : locate? [] (diagnostic.file.spelling.toList ++ (unread.text ++ trailing)) =
      some ([].reverse ++ diagnostic.file.spelling.toList, unread) :=
    readsPath tells.pathFilled tells.pathOneLine (readsUnreadName tells.formed trailing) noEarlier
  have lineRead : numeral? wordLimit unread.line = some diagnostic.line :=
    numeral_eq_some_iff.mpr ⟨tells.formed.line.1, tells.line⟩
  rw [diagnosticLocated located lineRead, columnNumeral tells.formed.column.1, ← tells.column,
    ← tells.message, ← tells.rule, ← tells.symbol]
  simp only [List.reverse_nil, List.nil_append, String.ofList_toList]

/-- Behind its opening parenthesis a message is made of digits, letters and word characters and of
what is always written there. -/
theorem UnreadName.Formed.without {unread : UnreadName} (formed : unread.Formed) {character : Char}
    (notDigit : isDecimalDigit character = false) (notLetter : character.isAlpha = false)
    (notWord : isWordCharacter character = false)
    (notWritten : character ∉ ",): error '".toList ++ unreadEnding) :
    character ∉ unread.enclosed := by
  obtain ⟨⟨-, lineDigits⟩, ⟨-, columnDigits⟩, ⟨letters, digits, -, areLetters, -, areDigits, code⟩,
    ⟨-, nameWord⟩⟩ := formed
  have notInLine : character ∉ unread.line := fun inside => by
    simp [lineDigits _ inside] at notDigit
  have notInColumn : character ∉ unread.column := fun inside => by
    simp [columnDigits _ inside] at notDigit
  have notInLetters : character ∉ letters := fun inside => by
    simp [areLetters _ inside] at notLetter
  have notInDigits : character ∉ digits := fun inside => by simp [areDigits _ inside] at notDigit
  have notInName : character ∉ unread.name := fun inside => by simp [nameWord _ inside] at notWord
  rw [List.mem_append, not_or] at notWritten
  simp_all [UnreadName.enclosed, UnreadName.message]

/-- The parenthesis that opens a message does not stand further on in it. -/
theorem UnreadName.Formed.noParenthesis {unread : UnreadName} (formed : unread.Formed) :
    '(' ∉ unread.enclosed :=
  formed.without (by decide) (by decide) (by decide) (by decide)

theorem UnreadName.endingInside (unread : UnreadName) : unreadEnding <:+ unread.enclosed := by
  refine ⟨unread.line ++ ',' :: (unread.column ++ ("): error ".toList ++ (unread.code ++
    (": '".toList ++ unread.name)))), ?_⟩
  simp [UnreadName.enclosed, UnreadName.message]

/-- A message that goes on within a path ends there, since the next one opens behind the path. -/
theorem goesOnWithin {part rest : List Char} (filled : part ≠ [])
    (goesOn : GoesOn (part ++ '(' :: rest)) : unreadEnding <:+: part := by
  obtain ⟨unread, trailing, formed, whole⟩ := goesOn
  obtain ⟨first, part, rfl⟩ := List.exists_cons_of_ne_nil filled
  obtain ⟨rfl, within⟩ := List.cons_eq_cons.mp whole
  rcases List.append_eq_append_iff.mp within with ⟨others, enclosed, after⟩ | ⟨others, rfl, -⟩
  · cases others with
    | nil =>
      rw [List.append_nil] at enclosed
      exact List.infix_cons (enclosed ▸ unread.endingInside).isInfix
    | cons opening others =>
      obtain ⟨rfl, -⟩ := List.cons_eq_cons.mp after
      exact absurd (by rw [enclosed]; simp) formed.noParenthesis
  · exact List.infix_cons (unread.endingInside.isInfix.trans (List.prefix_append _ _).isInfix)

theorem writtenRead {path : List Char} {unread : UnreadName} {line : Nat} (filled : path ≠ [])
    (oneLine : '\n' ∉ path) (noEnding : ¬ unreadEnding <:+: path) (formed : unread.Formed)
    (lineRead : numeral? wordLimit unread.line = some line) (trailing : List Char) :
    diagnostic? (path ++ (unread.text ++ trailing)) = some {
      file := ⟨String.ofList path⟩
      line
      column := numeral? wordLimit unread.column
      rule := unusedParameterRule
      message := String.ofList unread.message
      symbol := some (String.ofList unread.name) } := by
  have noEarlier : NoEarlier [] path (unread.text ++ trailing) := by
    rintro first second rfl secondFilled - goesOn
    exact noEnding ((goesOnWithin secondFilled goesOn).trans (List.suffix_append _ _).isInfix)
  have located : locate? [] (path ++ (unread.text ++ trailing)) =
      some ([].reverse ++ path, unread) :=
    readsPath filled oneLine (readsUnreadName formed trailing) noEarlier
  exact diagnosticLocated located lineRead

/-- A message is read as it is written when its path stands on one line and does not hold the
sentence that ends a message. Whatever is read is written so, with the shortest path that a message
can have there, with a line number of 64 bits and with a column that may be no number. -/
theorem messagesReadBack :
    (∀ (path letters digits name trailing : List Char) (line column : Nat),
      path ≠ [] → '\n' ∉ path → ¬ unreadEnding <:+: path →
      line < wordLimit → column < wordLimit →
      letters ≠ [] → (∀ character ∈ letters, character.isAlpha) →
      digits ≠ [] → (∀ character ∈ digits, isDecimalDigit character) →
      name ≠ [] → (∀ character ∈ name, isWordCharacter character) →
      diagnostic? (path ++ (UnreadName.text ⟨Nat.toDigits 10 line, Nat.toDigits 10 column,
          letters ++ digits, name⟩ ++ trailing)) = some {
        file := ⟨String.ofList path⟩
        line
        column := some column
        rule := unusedParameterRule
        message := String.ofList (letters ++ digits ++ (": '".toList ++ (name ++ unreadEnding)))
        symbol := some (String.ofList name) }) ∧
      ∀ text diagnostic, diagnostic? text = some diagnostic ↔
        ∃ unread, Tells text unread diagnostic := by
  refine ⟨?_, fun text diagnostic => ⟨diagnosticTells, fun ⟨_, tells⟩ => tellsDiagnostic tells⟩⟩
  intro path letters digits name trailing line column filled oneLine noEnding lineInRange
    columnInRange lettersFilled areLetters digitsFilled areDigits nameFilled nameWord
  have decimal : ∀ value, Nat.toDigits 10 value ≠ [] ∧
      ∀ character ∈ Nat.toDigits 10 value, isDecimalDigit character :=
    fun value => ⟨Nat.toDigits_ne_nil,
      fun digit inside => decimalDigitOfDigit (digitsAreDigits value digit inside)⟩
  have formed : UnreadName.Formed ⟨Nat.toDigits 10 line, Nat.toDigits 10 column,
      letters ++ digits, name⟩ :=
    ⟨decimal line, decimal column,
      ⟨letters, digits, lettersFilled, areLetters, digitsFilled, areDigits, rfl⟩,
      ⟨nameFilled, nameWord⟩⟩
  have read := writtenRead filled oneLine noEnding formed (numeralOfDigits lineInRange) trailing
  rw [numeralOfDigits columnInRange] at read
  exact read

/-- This path holds a place, the words behind a place and a quotation mark. -/
def nestedPath : List Char :=
  "src/(1,2): error TS1: 'a(3,4).ts".toList

/-- The line goes on with another message. -/
theorem nestedMessageReadBack :
    nestedPath ≠ [] ∧ '\n' ∉ nestedPath ∧ ¬ unreadEnding <:+: nestedPath ∧ 12 < wordLimit ∧
      5 < wordLimit ∧
      diagnostic? (nestedPath ++ ("(12,5): error TS6133: 'x_1".toList ++ unreadEnding ++
          "b.ts(5,6): error TS6133: 'y".toList ++ unreadEnding)) = some {
        file := ⟨String.ofList nestedPath⟩
        line := 12
        column := some 5
        rule := unusedParameterRule
        message := String.ofList ("TS6133: 'x_1".toList ++ unreadEnding)
        symbol := some (String.ofList "x_1".toList) } := by
  have oneLine : '\n' ∉ nestedPath := by decide +kernel
  have noEnding : ¬ unreadEnding <:+: nestedPath := by decide +kernel
  have lineInRange : 12 < wordLimit := by decide +kernel
  have columnInRange : 5 < wordLimit := by decide +kernel
  have read := messagesReadBack.1 nestedPath "TS".toList "6133".toList "x_1".toList
    ("b.ts(5,6): error TS6133: 'y".toList ++ unreadEnding) 12 5
    (by decide) oneLine noEnding lineInRange columnInRange (by decide) (by decide) (by decide)
    (by decide) (by decide) (by decide)
  have written : UnreadName.text ⟨Nat.toDigits 10 12, Nat.toDigits 10 5,
      "TS".toList ++ "6133".toList, "x_1".toList⟩ =
        "(12,5): error TS6133: 'x_1".toList ++ unreadEnding := by
    decide +kernel
  rw [written, ← List.append_assoc ("(12,5): error TS6133: 'x_1".toList ++ unreadEnding)] at read
  exact ⟨by decide, oneLine, noEnding, lineInRange, columnInRange, read⟩

end LintRepair.CompilerOutput
