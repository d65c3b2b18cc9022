/-
This file follows the reader of documents through one statement: its key, its value, and the round
that reads it.
-/

import LintRepair.Proofs.Toml.Line

namespace LintRepair.Toml

open Text

section Keys

variable {name : String} {before spelled behind rest : List Char}

theorem bareNotSpace {character : Char} (isBare : isBareKeyCharacter character) :
    isInlineSpace character = false := by
  by_contra isSpace
  simp only [isInlineSpace, Bool.not_eq_false, Bool.or_eq_true, beq_iff_eq] at isSpace
  rcases isSpace with rfl | rfl <;> exact absurd isBare (by decide)

theorem KeyText.notSpace (isKey : KeyText name spelled) (rest : List Char) :
    (spelled ++ rest).head?.any isInlineSpace = false := by
  obtain ⟨first, others, rfl, isBare | isMark⟩ := isKey.begins
  · simpa using bareNotSpace isBare
  · simp only [List.mem_cons, List.not_mem_nil, or_false] at isMark
    rcases isMark with rfl | rfl <;> rfl

/-- A point behind the first part of a key asks for another part. -/
theorem keyOpened (isSpace : InlineSpace before) (isKey : KeyText name spelled)
    (stops : rest.head?.any isBareKeyCharacter = false) (room : Nat) :
    key? (room + 1) (before ++ (spelled ++ rest)) =
      match skipInlineSpace rest with
      | '.' :: text => (key? room text).map fun read => ((name :: read.1.1, read.1.2), read.2)
      | text => some (([], name), text) := by
  rw [key?, skipsInlineSpace isSpace (isKey.notSpace rest), readsKeyPart isKey stops]
  simp only [Option.bind_eq_bind, Option.bind_some]
  generalize skipInlineSpace rest = behind
  cases behind with
  | nil => rfl
  | cons mark text =>
    by_cases isPoint : mark = '.'
    · subst isPoint
      cases further : key? room text <;> simp [further]
    · simp [isPoint]

/-- A character that is neither bare nor a space ends a key behind spaces. -/
theorem markStops (isBehind : InlineSpace behind) {mark : Char}
    (notBare : isBareKeyCharacter mark = false) (rest : List Char) :
    (behind ++ mark :: rest).head?.any isBareKeyCharacter = false := by
  refine stopsBefore (fun character inside => ?_) (fun _ => by simpa using notBare)
  by_contra isBare
  have isSpace := isBehind character inside
  rw [bareNotSpace (by simpa using isBare)] at isSpace
  cases isSpace

theorem readsKey (isBefore : InlineSpace before) (isKey : KeyText name spelled)
    (isBehind : InlineSpace behind) {mark : Char} (isMark : mark ∈ ['=', ']']) (rest : List Char) :
    key? nestingRoom (before ++ (spelled ++ (behind ++ mark :: rest))) =
      some (([], name), mark :: rest) := by
  have notBare : isBareKeyCharacter mark = false ∧ isInlineSpace mark = false ∧ mark ≠ '.' := by
    simp only [List.mem_cons, List.not_mem_nil, or_false] at isMark
    rcases isMark with rfl | rfl <;> decide
  obtain ⟨notBare, notSpace, notPoint⟩ := notBare
  have stops := markStops isBehind notBare rest
  have skipped : skipInlineSpace (behind ++ mark :: rest) = mark :: rest :=
    skipsInlineSpace isBehind (by simpa using notSpace)
  rw [nestingRoom, keyOpened isBefore isKey stops, skipped]
  split
  · next marked => exact absurd (List.cons_eq_cons.mp marked).1 notPoint
  · rfl

/-- Whatever follows, the first part of a key is the one that is written there. -/
theorem keyFirst (isBefore : InlineSpace before) (isKey : KeyText name spelled)
    (stops : rest.head?.any isBareKeyCharacter = false) {room : Nat} {path : List String}
    {key : String} {ahead : List Char}
    (read : key? (room + 1) (before ++ (spelled ++ rest)) = some ((path, key), ahead)) :
    path.headD key = name := by
  rw [keyOpened isBefore isKey stops] at read
  split at read
  · obtain ⟨further, -, whole⟩ := Option.map_eq_some_iff.mp read
    cases whole
    rfl
  · cases read
    rfl

theorem keySecond {table : String} {opening between : List Char} (isBefore : InlineSpace before)
    (isTable : KeyText table opening) (isBehind : InlineSpace behind)
    (isBetween : InlineSpace between) (isKey : KeyText name spelled)
    (stops : rest.head?.any isBareKeyCharacter = false) {path : List String} {key : String}
    {ahead : List Char}
    (read : key? nestingRoom
      (before ++ (opening ++ (behind ++ '.' :: (between ++ (spelled ++ rest))))) =
        some ((path, key), ahead)) :
    ∃ inner, path = table :: inner ∧ inner.headD key = name := by
  have point : skipInlineSpace (behind ++ '.' :: (between ++ (spelled ++ rest))) =
      '.' :: (between ++ (spelled ++ rest)) :=
    skipsInlineSpace isBehind rfl
  rw [nestingRoom, keyOpened isBefore isTable (markStops isBehind (by decide) _), point] at read
  obtain ⟨⟨⟨inner, last⟩, behindKey⟩, further, whole⟩ := Option.map_eq_some_iff.mp read
  cases whole
  exact ⟨inner, rfl, keyFirst isBetween isKey stops further⟩

end Keys

section Rounds

theorem blankRound {line : List Char} (lineEnd : LineEnd line) (rounds : Nat) (rest : List Char) :
    statements? (rounds + 1) (line ++ rest) = statements? rounds rest := by
  obtain ⟨space, mark, others, isMark, isSpace, remains, rfl⟩ := lineEnd.marked
  have ends := endsLine remains rest
  simp only [List.mem_cons, List.not_mem_nil, or_false] at isMark
  have notSpace : (mark :: (others ++ rest)).head?.any isInlineSpace = false := by
    rcases isMark with rfl | rfl | rfl <;> rfl
  rw [List.append_assoc, List.cons_append, statements?, skipsInlineSpace isSpace notSpace]
  simp only [List.cons_append] at ends
  rcases isMark with rfl | rfl | rfl <;> simp [ends]

/-- A character with which a statement begins. -/
def BeginsStatement (character : Char) : Prop :=
  isBareKeyCharacter character ∨ character ∈ ['"', '\'', '[']

theorem statementRound {indent : List Char} (isSpace : InlineSpace indent) {first : Char}
    (begins : BeginsStatement first) (rounds : Nat) (text : List Char) :
    statements? (rounds + 1) (indent ++ first :: text) =
      (statement? (first :: text)).bind fun read =>
        (statements? rounds read.2).map fun statements => read.1 :: statements := by
  have apart : first ∉ [' ', '\t', '\n', '\r', '#'] := by
    intro inside
    simp only [List.mem_cons, List.not_mem_nil, or_false] at inside
    rcases inside with rfl | rfl | rfl | rfl | rfl <;> revert begins <;>
      simp [BeginsStatement, isBareKeyCharacter]
  simp only [List.mem_cons, List.not_mem_nil, or_false, not_or] at apart
  obtain ⟨notBlank, notTab, notLineFeed, notReturn, notSign⟩ := apart
  have notSpace : (first :: text).head?.any isInlineSpace = false := by
    simp [isInlineSpace, notBlank, notTab]
  rw [statements?, skipsInlineSpace isSpace notSpace]
  cases read : statement? (first :: text) with
  | none => simp [read, notLineFeed, notReturn, notSign]
  | some result =>
    cases further : statements? rounds result.2 <;>
      simp [read, further, notLineFeed, notReturn, notSign]

theorem firstStatement {indent : List Char} (isSpace : InlineSpace indent) {first : Char}
    (begins : BeginsStatement first) {rounds : Nat} {text : List Char} {statements : List Statement}
    (read : statements? rounds (indent ++ first :: text) = some statements) :
    ∃ statement others rest,
      statement? (first :: text) = some (statement, rest) ∧ statements = statement :: others := by
  cases rounds with
  | zero => cases read
  | succ rounds =>
    rw [statementRound isSpace begins] at read
    obtain ⟨⟨statement, rest⟩, statementRead, onwards⟩ := Option.bind_eq_some_iff.mp read
    obtain ⟨others, -, rfl⟩ := Option.map_eq_some_iff.mp onwards
    exact ⟨statement, others, rest, statementRead, rfl⟩

/-- More rounds than are needed change nothing. -/
theorem roundsAdded {rounds : Nat} {text : List Char} {statements : List Statement}
    (read : statements? rounds text = some statements) (more : Nat) :
    statements? (rounds + more) text = some statements := by
  induction rounds generalizing text statements with
  | zero => cases read
  | succ rounds inductionHypothesis =>
    rw [Nat.succ_add]
    rw [statements?] at read ⊢
    generalize skipInlineSpace text = ahead at read ⊢
    cases ahead with
    | nil => exact read
    | cons character ahead =>
      simp only [Option.bind_eq_bind, Option.pure_def] at read ⊢
      split at read
      · next isBlank =>
        obtain ⟨rest, ends, onwards⟩ := Option.bind_eq_some_iff.mp read
        rw [if_pos isBlank, ends, Option.bind_some, inductionHypothesis onwards]
      · next notBlank =>
        obtain ⟨result, first, onwards⟩ := Option.bind_eq_some_iff.mp read
        obtain ⟨others, readOn, whole⟩ := Option.bind_eq_some_iff.mp onwards
        rw [if_neg notBlank, first, Option.bind_some, inductionHypothesis readOn, Option.bind_some,
          whole]

end Rounds

section Statements

variable {name : String} {line : List Char}

/-- A written value is read as such in front of anything but a quotation mark. -/
def Means (value : Value) (text : List Char) : Prop :=
  (∃ first others, text = first :: others ∧ isInlineSpace first = false) ∧
    ∀ rest : List Char, rest.head? ≠ some '"' →
      value? nestingRoom (text ++ rest) = some (value, rest)

theorem stringMeans {value : String} {text : List Char} (written : StringText value text) :
    Means (.text value) text := by
  constructor
  · obtain ⟨behind, rfl⟩ := written.begins
    exact ⟨_, _, rfl, rfl⟩
  · exact fun rest apart => readsStringValue written apart nestingRoom

theorem arrayMeans {items : List String} {text : List Char} (written : ArrayText items text) :
    Means (.array (items.map .text)) text := by
  constructor
  · obtain ⟨inside, -, rfl⟩ := written
    exact ⟨_, _, rfl, rfl⟩
  · exact fun rest _ => readsArrayValue written _ rest

theorem readsPair {spelled before behind value tail : List Char} {content : Value}
    (isKey : KeyText name spelled) (isBefore : InlineSpace before) (isBehind : InlineSpace behind)
    (means : Means content value) (apart : tail.head? ≠ some '"') :
    pair? (value? nestingRoom) (spelled ++ (before ++ '=' :: (behind ++ (value ++ tail)))) =
      some (⟨[], name, content⟩, tail) := by
  have key := readsKey spaceNil isKey isBefore (by decide : '=' ∈ ['=', ']'])
    (behind ++ (value ++ tail))
  obtain ⟨⟨first, others, rfl, notSpace⟩, reads⟩ := means
  have skipped : skipInlineSpace (behind ++ (first :: others ++ tail)) = first :: others ++ tail :=
    skipsInlineSpace isBehind (by simpa using notSpace)
  rw [List.nil_append] at key
  rw [pair?, key]
  simp only [Option.bind_eq_bind, Option.bind_some, readsMark, skipped]
  rw [reads _ apart]
  rfl

theorem KeyText.beginsStatement {spelled : List Char} (isKey : KeyText name spelled) :
    ∃ first others, spelled = first :: others ∧ BeginsStatement first ∧ first ≠ '[' := by
  obtain ⟨first, others, whole, isBare | isMark⟩ := isKey.begins
  · refine ⟨first, others, whole, .inl isBare, ?_⟩
    rintro rfl
    exact absurd isBare (by decide)
  · refine ⟨first, others, whole, .inr ?_, ?_⟩
    · exact List.mem_append_left ['['] isMark
    · rintro rfl
      exact absurd isMark (by decide)

theorem bracketApart {before spelled : List Char} (isBefore : InlineSpace before)
    (isKey : KeyText name spelled) (rest : List Char) :
    (before ++ (spelled ++ rest)).head? ≠ some '[' := by
  obtain ⟨first, others, rfl, -, noBracket⟩ := isKey.beginsStatement
  exact spaceApart isBefore rfl (by simpa using noBracket)

/-- The key that a header names. -/
def Statement.header? : Statement → Option (List String × String)
  | .pair _ => none
  | .table path key | .element path key => some (path, key)

/-- What does not begin with a bracket is a pair. -/
theorem pairAhead {first : Char} (noBracket : first ≠ '[') (text : List Char) :
    statement? (first :: text) =
      (pair? (value? nestingRoom) (first :: text)).bind fun read =>
        (endLine? read.2).map fun rest => (.pair read.1, rest) := by
  rw [statement?]
  · cases read : pair? (value? nestingRoom) (first :: text) with
    | none => rfl
    | some result => cases ends : endLine? result.2 <;> simp [ends]
  · rintro behind marked
    exact noBracket (List.cons_eq_cons.mp marked).1
  · rintro behind marked
    exact noBracket (List.cons_eq_cons.mp marked).1

/-- What follows the opening brackets of a header. -/
def bracketed? (closing : List Char) (header : List String → String → Statement)
    (text : List Char) : Option (Statement × List Char) := do
  let ((path, key), text) ← key? nestingRoom text
  let text ← literal? closing text
  return (header path key, ← endLine? text)

/-- A bracket that no other one follows opens the header of a table. -/
theorem headerAhead {text : List Char} (single : text.head? ≠ some '[') :
    statement? ('[' :: text) = bracketed? [']'] .table text := by
  rw [statement?]
  · rfl
  · rintro behind rfl
    exact single rfl

theorem elementAhead (text : List Char) :
    statement? ('[' :: '[' :: text) = bracketed? [']', ']'] .element text :=
  rfl

section Inversion

variable {text rest : List Char} {statement : Statement}

theorem headerRead {closing : List Char} {header : List String → String → Statement}
    (read : bracketed? closing header text = some (statement, rest)) : ∃ path key behind,
      key? nestingRoom text = some ((path, key), behind) ∧ statement = header path key := by
  obtain ⟨⟨⟨path, key⟩, behind⟩, keyRead, read⟩ := Option.bind_eq_some_iff.mp read
  obtain ⟨closed, -, read⟩ := Option.bind_eq_some_iff.mp read
  obtain ⟨ended, -, whole⟩ := Option.bind_eq_some_iff.mp read
  cases whole
  exact ⟨path, key, behind, keyRead, rfl⟩

theorem pairRead {first : Char} (noBracket : first ≠ '[')
    (read : statement? (first :: text) = some (statement, rest)) : ∃ path key value behind,
      key? nestingRoom (first :: text) = some ((path, key), behind) ∧
        statement = .pair ⟨path, key, value⟩ := by
  rw [pairAhead noBracket] at read
  obtain ⟨⟨pair, behind⟩, pairRead, read⟩ := Option.bind_eq_some_iff.mp read
  obtain ⟨ended, -, whole⟩ := Option.map_eq_some_iff.mp read
  cases whole
  obtain ⟨⟨⟨path, key⟩, behindKey⟩, keyRead, pairRead⟩ := Option.bind_eq_some_iff.mp pairRead
  obtain ⟨equals, -, pairRead⟩ := Option.bind_eq_some_iff.mp pairRead
  obtain ⟨⟨value, behindValue⟩, -, whole⟩ := Option.bind_eq_some_iff.mp pairRead
  cases whole
  exact ⟨path, key, value, behindKey, keyRead, rfl⟩

/-- A bracket opens a header. -/
theorem bracketOpens (read : statement? ('[' :: text) = some (statement, rest)) :
    ∃ path key, statement.header? = some (path, key) := by
  by_cases double : text.head? = some '['
  · obtain ⟨text, rfl⟩ := List.head?_eq_some_iff.mp double
    rw [elementAhead] at read
    obtain ⟨path, key, -, -, rfl⟩ := headerRead read
    exact ⟨path, key, rfl⟩
  · rw [headerAhead double] at read
    obtain ⟨path, key, -, -, rfl⟩ := headerRead read
    exact ⟨path, key, rfl⟩

end Inversion

end Statements

section Concerns

/-- A pair defines a key, or a key of it, in the table where the pair stands; a header names a table
below that table. -/
def Statement.Concerns (table name : String) : Statement → Prop
  | .pair defined => defined.path.headD defined.key = name
  | .table path key | .element path key => ∃ inner, path = table :: inner ∧ inner.headD key = name

variable {table name : String}

theorem Statement.Concerns.named {statement : Statement} (concerns : statement.Concerns table name)
    {path : List String} {key : String} (isHeader : statement.header? = some (path, key)) :
    ∃ inner, path = table :: inner ∧ inner.headD key = name := by
  cases statement with
  | pair => cases isHeader
  | table | element =>
    cases isHeader
    exact concerns

/-- Whatever goes on behind the beginning of a statement about a key, the statement is one. -/
theorem KeyAhead.concerns {text : List Char} (ahead : KeyAhead table name text) {rounds : Nat}
    {statements : List Statement} (read : statements? rounds text = some statements) :
    ∃ statement others, statements = statement :: others ∧ statement.Concerns table name := by
  cases ahead with
  | @pair indent spelled rest isIndent isKey stops =>
    have keyed := @keyFirst name [] spelled rest spaceNil isKey stops
    obtain ⟨first, others, rfl, begins, noBracket⟩ := isKey.beginsStatement
    obtain ⟨statement, others, behind, statementRead, rfl⟩ := firstStatement isIndent begins read
    obtain ⟨path, key, value, ahead, keyRead, rfl⟩ := pairRead noBracket statementRead
    exact ⟨_, others, rfl, keyed keyRead⟩
  | header isIndent isBrackets isBefore isTable isBehind isBetween isKey stops =>
    simp only [List.mem_cons, List.not_mem_nil, or_false] at isBrackets
    have begins : BeginsStatement '[' := .inr (by decide)
    rcases isBrackets with rfl | rfl
    · obtain ⟨statement, others, behind, statementRead, rfl⟩ := firstStatement isIndent begins read
      obtain ⟨path, key, ahead, keyRead, rfl⟩ :=
        headerRead ((headerAhead (bracketApart isBefore isTable _)).symm.trans statementRead)
      exact ⟨_, others, rfl, keySecond isBefore isTable isBehind isBetween isKey stops keyRead⟩
    · obtain ⟨statement, others, behind, statementRead, rfl⟩ := firstStatement isIndent begins read
      obtain ⟨path, key, ahead, keyRead, rfl⟩ := headerRead statementRead
      exact ⟨_, others, rfl, keySecond isBefore isTable isBehind isBetween isKey stops keyRead⟩

end Concerns

end LintRepair.Toml
