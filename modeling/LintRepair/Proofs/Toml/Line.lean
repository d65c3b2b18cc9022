/-
This file follows the reader of documents through lines as the grammar writes them.
-/

import LintRepair.Proofs.Text.Reader
import LintRepair.Proofs.Toml.QuotedText

namespace LintRepair.Toml

open Text

section Ends

variable {space line rest behind : List Char}

theorem spaceNil : InlineSpace [] := by
  simp [InlineSpace]

theorem skipsInlineSpace (isSpace : InlineSpace space)
    (stops : rest.head?.any isInlineSpace = false) : skipInlineSpace (space ++ rest) = rest :=
  dropWhileRun isSpace stops

/-- A text does not begin with a character behind spaces either. -/
theorem spaceApart (isSpace : InlineSpace space) {character : Char}
    (notSpace : isInlineSpace character = false) (apart : rest.head? ≠ some character) :
    (space ++ rest).head? ≠ some character := by
  cases space with
  | nil => exact apart
  | cons first space =>
    intro isFirst
    obtain rfl : first = character := by simpa using isFirst
    rw [isSpace first List.mem_cons_self] at notSpace
    cases notSpace

theorem restApart (isRest : RestOfLine rest) (apart : behind.head? ≠ some '"') :
    (rest ++ behind).head? ≠ some '"' := by
  obtain ⟨space, comment, isSpace, isComment, rfl⟩ := isRest
  rw [List.append_assoc]
  refine spaceApart isSpace rfl ?_
  rcases isComment with rfl | ⟨inside, -, rfl⟩
  · exact apart
  · simp

theorem lineEndApart (isEnd : LineEnd line) (rest : List Char) :
    (line ++ rest).head? ≠ some '"' := by
  obtain ⟨front, mark, isMark, isRest, rfl⟩ := isEnd
  rw [List.append_assoc]
  refine restApart isRest ?_
  simp only [List.mem_cons, List.not_mem_nil, or_false] at isMark
  rcases isMark with rfl | rfl <;> simp

theorem LineEnd.notEmpty (isEnd : LineEnd line) : line ≠ [] := by
  obtain ⟨front, mark, isMark, -, rfl⟩ := isEnd
  refine List.append_ne_nil_of_right_ne_nil _ ?_
  rintro rfl
  exact absurd isMark (by decide)

/-- The end of a text ends its last line. -/
theorem endsText (isRest : RestOfLine rest) : endLine? rest = some [] := by
  obtain ⟨space, comment, isSpace, isComment, rfl⟩ := isRest
  rcases isComment with rfl | ⟨inside, areText, rfl⟩
  · rw [endLine?, skipsInlineSpace isSpace rfl]
    rfl
  · have skipped : inside.dropWhile isTextCharacter = [] := by
      simpa using areText
    rw [endLine?, skipsInlineSpace isSpace rfl, skipComment, skipped]

theorem endsLine (isEnd : LineEnd line) (rest : List Char) :
    endLine? (line ++ rest) = some rest := by
  obtain ⟨front, mark, isMark, ⟨space, comment, isSpace, isComment, rfl⟩, rfl⟩ := isEnd
  simp only [List.mem_cons, List.not_mem_nil, or_false] at isMark
  have notSpace : (comment ++ (mark ++ rest)).head?.any isInlineSpace = false := by
    rcases isComment with rfl | ⟨inside, -, rfl⟩
    · rcases isMark with rfl | rfl <;> rfl
    · rfl
  have commentSkipped : skipComment (comment ++ (mark ++ rest)) = mark ++ rest := by
    rcases isComment with rfl | ⟨inside, areText, rfl⟩
    · rcases isMark with rfl | rfl <;> rfl
    · apply dropWhileRun areText
      rcases isMark with rfl | rfl <;> rfl
  rw [endLine?, List.append_assoc, List.append_assoc, skipsInlineSpace isSpace notSpace,
    commentSkipped]
  rcases isMark with rfl | rfl <;> rfl

/-- Without its line feed, the end of a line may end a text. A carriage return is no part of a
comment, so it has to go as well. -/
theorem LineEnd.withoutFeed (isEnd : LineEnd (rest ++ ['\n']))
    (noReturn : rest.getLast? ≠ some '\r') : RestOfLine rest := by
  obtain ⟨front, mark, isMark, isRest, whole⟩ := isEnd
  simp only [List.mem_cons, List.not_mem_nil, or_false] at isMark
  rcases isMark with rfl | rfl
  · obtain ⟨rfl, -⟩ := List.append_inj' whole rfl
    exact isRest
  · have returned : rest ++ ['\n'] = (front ++ ['\r']) ++ ['\n'] := by simpa using whole
    obtain ⟨rfl, -⟩ := List.append_inj' returned rfl
    exact absurd List.getLast?_concat noReturn

/-- The end of a line begins behind its spaces with one of three characters. -/
theorem LineEnd.marked (isEnd : LineEnd line) :
    ∃ space mark rest, mark ∈ ['\n', '\r', '#'] ∧ InlineSpace space ∧ LineEnd (mark :: rest) ∧
      line = space ++ mark :: rest := by
  obtain ⟨front, mark, isMark, ⟨space, comment, isSpace, isComment, rfl⟩, rfl⟩ := isEnd
  have remains : LineEnd (comment ++ mark) :=
    ⟨comment, mark, isMark, ⟨[], comment, spaceNil, isComment, rfl⟩, rfl⟩
  rw [List.append_assoc]
  simp only [List.mem_cons, List.not_mem_nil, or_false] at isMark
  rcases isComment with rfl | ⟨inside, -, rfl⟩
  · rcases isMark with rfl | rfl
    · exact ⟨space, _, _, by decide, isSpace, remains, rfl⟩
    · exact ⟨space, _, _, by decide, isSpace, remains, rfl⟩
  · exact ⟨space, _, _, by decide, isSpace, remains, rfl⟩

end Ends

section Gaps

theorem spaceSkipped {space : List Char} (isSpace : InlineSpace space) (rest : List Char) :
    skipGap .space (space ++ rest) = skipGap .space rest := by
  induction space with
  | nil => rfl
  | cons character space inductionHypothesis =>
    obtain ⟨isFirst, areOthers⟩ := List.forall_mem_cons.mp isSpace
    simp [skipGap, isFirst, inductionHypothesis areOthers]

theorem commentSkipped {inside : List Char}
    (areText : ∀ character ∈ inside, isTextCharacter character) (rest : List Char) :
    skipGap .comment (inside ++ rest) = skipGap .comment rest := by
  induction inside with
  | nil => rfl
  | cons character inside inductionHypothesis =>
    obtain ⟨isFirst, areOthers⟩ := List.forall_mem_cons.mp areText
    simp [skipGap, isFirst, inductionHypothesis areOthers]

theorem lineSkipped {line : List Char} (isEnd : LineEnd line) (rest : List Char) :
    skipGap .space (line ++ rest) = skipGap .space rest := by
  obtain ⟨front, mark, isMark, ⟨space, comment, isSpace, isComment, rfl⟩, rfl⟩ := isEnd
  simp only [List.mem_cons, List.not_mem_nil, or_false] at isMark
  rw [List.append_assoc, List.append_assoc, spaceSkipped isSpace]
  rcases isComment with rfl | ⟨inside, areText, rfl⟩
  · rcases isMark with rfl | rfl <;> rfl
  · have opened : skipGap .space ('#' :: (inside ++ (mark ++ rest))) =
        skipGap .comment (inside ++ (mark ++ rest)) := rfl
    rw [List.cons_append, opened, commentSkipped areText]
    rcases isMark with rfl | rfl <;> rfl

theorem linesSkipped {lines : List Char} (blank : BlankLines lines) (rest : List Char) :
    skipGap .space (lines ++ rest) = skipGap .space rest := by
  induction blank with
  | none => rfl
  | next isEnd _ inductionHypothesis =>
    rw [List.append_assoc, lineSkipped isEnd, inductionHypothesis]

theorem skipsGap {gap : List Char} (isGap : GapText gap) {token : Char}
    (isToken : token ∈ ['"', ',', ']']) (rest : List Char) :
    skipGap .space (gap ++ token :: rest) = token :: rest := by
  obtain ⟨lines, space, blank, isSpace, rfl⟩ := isGap
  rw [List.append_assoc, linesSkipped blank, spaceSkipped isSpace]
  simp only [List.mem_cons, List.not_mem_nil, or_false] at isToken
  rcases isToken with rfl | rfl | rfl <;> rfl

/-- No quotation mark stands behind a string in an array. -/
theorem gapApart {gap : List Char} (isGap : GapText gap) {token : Char}
    (isToken : token ∈ [',', ']']) (rest : List Char) :
    (gap ++ token :: rest).head? ≠ some '"' := by
  intro isMark
  have skipped := skipsGap isGap (List.mem_cons_of_mem _ isToken) rest
  obtain ⟨behind, marked⟩ := List.head?_eq_some_iff.mp isMark
  have kept : skipGap .space ('"' :: behind) = '"' :: behind := rfl
  rw [marked, kept] at skipped
  obtain ⟨rfl, -⟩ := List.cons_eq_cons.mp skipped
  exact absurd isToken (by decide)

end Gaps

section Values

theorem readsStringValue {value : String} {text rest : List Char} (written : StringText value text)
    (apart : rest.head? ≠ some '"') (room : Nat) :
    value? room (text ++ rest) = some (.text value, rest) := by
  have simple : simpleValue? (text ++ rest) = some (.text value, rest) := by
    rw [simpleValue?, QuotedText.readsString written apart]
  obtain ⟨behind, rfl⟩ := written.begins
  cases room <;> exact simple

/-- A round reads an item; a comma behind it asks for another round. -/
theorem itemRound {item : String} {before text behind : List Char} (isBefore : GapText before)
    (written : StringText item text) (isBehind : GapText behind) {token : Char}
    (isToken : token ∈ [',', ']']) (room rounds : Nat) (rest : List Char) :
    items? (value? room) (rounds + 1) (before ++ (text ++ (behind ++ token :: rest))) =
      if token = ']' then some ([.text item], rest)
      else (items? (value? room) rounds rest).map fun read => (.text item :: read.1, read.2) := by
  have read := readsStringValue written (gapApart isBehind isToken rest) room
  have between := skipsGap isBehind (List.mem_cons_of_mem _ isToken) rest
  obtain ⟨opened, rfl⟩ := written.begins
  simp only [List.cons_append] at read ⊢
  rw [items?, skipsGap isBefore (by decide)]
  simp only [List.mem_cons, List.not_mem_nil, or_false] at isToken
  rcases isToken with rfl | rfl
  · cases further : items? (value? room) rounds rest <;> simp [read, between, further]
  · simp [read, between]

/-- Items are read in as many rounds as their text has characters, and one more. -/
theorem readsItems {items : List String} {text : List Char} (listed : Listed items text)
    {rounds : Nat} (enough : text.length < rounds) (room : Nat) (rest : List Char) :
    items? (value? room) rounds (text ++ ']' :: rest) = some (items.map .text, rest) := by
  induction listed generalizing rounds with
  | none isGap =>
    obtain ⟨rounds, rfl⟩ := Nat.exists_eq_add_one_of_ne_zero (Nat.ne_zero_of_lt enough)
    rw [items?, skipsGap isGap (by decide)]
    rfl
  | last isBefore written isBehind =>
    obtain ⟨rounds, rfl⟩ := Nat.exists_eq_add_one_of_ne_zero (Nat.ne_zero_of_lt enough)
    simp only [List.append_assoc]
    rw [itemRound isBefore written isBehind (by decide), if_pos rfl]
    rfl
  | @next _ _ before text behind others isBefore written isBehind _ inductionHypothesis =>
    obtain ⟨rounds, rfl⟩ := Nat.exists_eq_add_one_of_ne_zero (Nat.ne_zero_of_lt enough)
    have fewer : others.length < rounds := by
      simp only [List.length_append, List.length_cons] at enough
      omega
    simp only [List.append_assoc, List.cons_append]
    rw [itemRound isBefore written isBehind (by decide), if_neg (by decide),
      inductionHypothesis fewer]
    rfl

theorem readsArrayValue {items : List String} {text : List Char} (written : ArrayText items text)
    (room : Nat) (rest : List Char) :
    value? (room + 1) (text ++ rest) = some (.array (items.map .text), rest) := by
  obtain ⟨inside, listed, rfl⟩ := written
  have enough : inside.length < (inside ++ ']' :: rest).length + 1 := by
    simp only [List.length_append]
    omega
  simp only [List.cons_append, List.append_assoc, List.nil_append]
  rw [value?, readsItems listed enough]
  rfl

end Values

section Keys

variable {name : String} {spelled rest : List Char}

theorem KeyText.begins (isKey : KeyText name spelled) : ∃ first others,
    spelled = first :: others ∧ (isBareKeyCharacter first ∨ first ∈ ['"', '\'']) := by
  cases isKey with
  | bare notEmpty inside =>
    obtain ⟨first, others, whole⟩ := List.exists_cons_of_ne_nil notEmpty
    exact ⟨first, others, whole, .inl (inside first (whole ▸ List.mem_cons_self))⟩
  | quoted written =>
    obtain ⟨behind, rfl⟩ := written.begins
    exact ⟨_, _, rfl, .inr (by decide)⟩
  | literal _ => exact ⟨_, _, rfl, .inr (by decide)⟩

theorem readsKeyPart (isKey : KeyText name spelled)
    (stops : rest.head?.any isBareKeyCharacter = false) :
    keyPart? (spelled ++ rest) = some (name, rest) := by
  cases isKey with
  | bare notEmpty inside =>
    have run := readsRun notEmpty inside stops
    obtain ⟨first, others, whole⟩ := List.exists_cons_of_ne_nil notEmpty
    have isBare := inside first (whole ▸ List.mem_cons_self)
    have notMark : first ≠ '"' := by rintro rfl; exact absurd isBare (by decide)
    have notQuote : first ≠ '\'' := by rintro rfl; exact absurd isBare (by decide)
    have back : String.ofList name.toList = name := String.ofList_toList
    rw [whole] at run back ⊢
    rw [List.cons_append] at run ⊢
    simp [keyPart?, notMark, notQuote, run, back]
  | quoted written =>
    have read := QuotedText.readsLine written rest
    obtain ⟨behind, rfl⟩ := written.begins
    exact read
  | literal plain =>
    have read := QuotedText.readsLiteral plain rest
    simpa [keyPart?] using read

end Keys

end LintRepair.Toml
