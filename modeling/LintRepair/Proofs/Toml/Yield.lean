/-
This file tells which statements a text of whole lines yields, whatever follows it.
-/

import LintRepair.Proofs.Toml.Statement

namespace LintRepair.Toml

open Text

/-- A text of whole lines yields statements, whatever follows it, and the last line needs no line
feed where nothing follows. Every statement takes at least one character. -/
def Yields (text : List Char) (statements : List Statement) : Prop :=
  ∃ rounds ≤ text.length,
    (∀ further rest, statements? (further + rounds) (text ++ rest) =
      (statements? further rest).map fun others => statements ++ others) ∧
    ∀ unended, text = unended ++ ['\n'] → unended.getLast? ≠ some '\r' →
      statements? (unended.length + 1) unended = some statements

variable {first second : List Char} {earlier later statements : List Statement}

theorem Yields.nil : Yields [] [] := by
  refine ⟨0, Nat.le_refl 0, fun further rest => by simp, fun unended whole => ?_⟩
  exact absurd whole.symm (by simp)

theorem Yields.nothing (yields : Yields [] statements) : statements = [] := by
  obtain ⟨rounds, enough, reads, -⟩ := yields
  obtain rfl : rounds = 0 := Nat.le_zero.mp enough
  have read := reads 1 []
  have finished : statements? (1 + 0) [] = some [] := rfl
  rw [List.append_nil, finished, Option.map_some, List.append_nil] at read
  exact (Option.some.inj read).symm

/-- The line feed at the end of a text is the one at the end of its last part. -/
theorem lineFeedLast {front behind unended : List Char} (notEmpty : behind ≠ [])
    (whole : front ++ behind = unended ++ ['\n']) :
    ∃ last, behind = last ++ ['\n'] ∧ unended = front ++ last := by
  obtain isEmpty | ⟨last, character, rfl⟩ := List.eq_nil_or_concat' behind
  · exact absurd isEmpty notEmpty
  · rw [← List.append_assoc] at whole
    obtain ⟨rfl, same⟩ := List.append_inj' whole rfl
    exact ⟨last, by rw [same], rfl⟩

theorem returnBehind {front last : List Char} (noReturn : (front ++ last).getLast? ≠ some '\r') :
    last.getLast? ≠ some '\r' := by
  intro returned
  rw [List.getLast?_append, returned] at noReturn
  exact noReturn rfl

theorem Yields.append (yields : Yields first earlier) (onwards : Yields second later) :
    Yields (first ++ second) (earlier ++ later) := by
  by_cases isEmpty : second = []
  · subst isEmpty
    rwa [onwards.nothing, List.append_nil, List.append_nil]
  obtain ⟨rounds, enough, reads, -⟩ := yields
  obtain ⟨more, moreEnough, readsOn, readsLast⟩ := onwards
  refine ⟨more + rounds, by rw [List.length_append]; omega, fun further rest => ?_, ?_⟩
  · rw [← Nat.add_assoc, List.append_assoc, reads, readsOn, Option.map_map]
    simp [Function.comp_def]
  · intro unended whole noReturn
    obtain ⟨last, ended, rfl⟩ := lineFeedLast isEmpty whole
    -- Rounds that the first text leaves over do no harm behind it.
    have read := roundsAdded (readsLast last ended (returnBehind noReturn)) (first.length - rounds)
    have total : (first ++ last).length + 1 =
        last.length + 1 + (first.length - rounds) + rounds := by
      rw [List.length_append]
      omega
    rw [total, reads, read, Option.map_some]

/-- A line yields statements when its front is read as such before any end of a line. -/
theorem lineYields {front lineEnd : List Char} (notEmpty : front ≠ []) (isEnd : LineEnd lineEnd)
    (round : ∀ tail rest rounds, endLine? tail = some rest → tail.head? ≠ some '"' →
      statements? (rounds + 1) (front ++ tail) =
        (statements? rounds rest).map fun others => statements ++ others) :
    Yields (front ++ lineEnd) statements := by
  have filled := List.length_pos_iff.mpr notEmpty
  refine ⟨1, by rw [List.length_append]; omega, fun further rest => ?_,
    fun unended whole noReturn => ?_⟩
  · rw [List.append_assoc, round _ _ _ (endsLine isEnd rest) (lineEndApart isEnd rest)]
  · obtain ⟨last, rfl, rfl⟩ := lineFeedLast isEnd.notEmpty whole
    have isRest := isEnd.withoutFeed (returnBehind noReturn)
    have apart := restApart isRest (by simp : ([] : List Char).head? ≠ some '"')
    rw [List.append_nil] at apart
    obtain ⟨further, total⟩ : ∃ further, (front ++ last).length = further + 1 :=
      Nat.exists_eq_add_one.mpr (by rw [List.length_append]; omega)
    have finished : statements? (further + 1) [] = some [] := rfl
    rw [round _ _ _ (endsText isRest) apart, total, finished, Option.map_some, List.append_nil]

theorem restRead {rest : List Char} (isRest : RestOfLine rest) :
    statements? (rest.length + 1) rest = some [] := by
  obtain ⟨space, comment, isSpace, isComment, rfl⟩ := isRest
  rcases isComment with rfl | ⟨inside, areText, rfl⟩
  · rw [statements?, skipsInlineSpace isSpace rfl]
  · have ends : endLine? ('#' :: inside) = some [] :=
      endsText ⟨[], '#' :: inside, spaceNil, .inr ⟨inside, areText, rfl⟩, rfl⟩
    have total : (space ++ '#' :: inside).length = space.length + inside.length + 1 := by
      rw [List.length_append, List.length_cons, Nat.add_assoc]
    rw [statements?, skipsInlineSpace isSpace rfl]
    simp [ends, total, statements?, skipInlineSpace]

theorem blankYields {lines : List Char} (blank : BlankLines lines) : Yields lines [] := by
  induction blank with
  | none => exact .nil
  | @next line rest isEnd _ inductionHypothesis =>
    have yields : Yields line [] := by
      refine ⟨1, List.length_pos_iff.mpr isEnd.notEmpty,
        fun further rest => by simp [blankRound isEnd], ?_⟩
      rintro unended rfl noReturn
      exact restRead (isEnd.withoutFeed noReturn)
    exact yields.append inductionHypothesis

theorem headerYields {name : String} {line : List Char} (header : HeaderText name line) :
    Yields line [.table [] name] := by
  obtain ⟨indent, before, spelled, behind, lineEnd, isIndent, isBefore, isKey, isBehind, isEnd,
    rfl⟩ := header
  have yields := @lineYields [.table [] name]
    (indent ++ '[' :: (before ++ (spelled ++ (behind ++ [']'])))) lineEnd (by simp) isEnd
  simp only [List.append_assoc, List.cons_append, List.nil_append] at yields
  refine yields fun tail rest rounds ends _ => ?_
  have key := readsKey isBefore isKey isBehind (by decide : ']' ∈ ['=', ']']) tail
  have single := bracketApart isBefore isKey (behind ++ ']' :: tail)
  rw [statementRound isIndent (.inr (by decide)), headerAhead single]
  simp [bracketed?, key, readsMark, ends]

theorem pairYields {name : String} {Text : List Char → Prop} {line : List Char} {content : Value}
    (written : PairText name Text line) (means : ∀ text, Text text → Means content text) :
    Yields line [.pair ⟨[], name, content⟩] := by
  obtain ⟨indent, spelled, before, behind, value, lineEnd, isIndent, isKey, isBefore, isBehind,
    isValue, isEnd, rfl⟩ := written
  have yields := @lineYields [.pair ⟨[], name, content⟩]
    (indent ++ (spelled ++ (before ++ '=' :: (behind ++ value)))) lineEnd (by simp) isEnd
  simp only [List.append_assoc, List.cons_append] at yields
  refine yields fun tail rest rounds ends apart => ?_
  have read := readsPair isKey isBefore isBehind (means value isValue) apart
  obtain ⟨first, others, rfl, begins, noBracket⟩ := isKey.beginsStatement
  rw [List.cons_append] at read ⊢
  rw [statementRound isIndent begins, pairAhead noBracket, read]
  simp [ends]

theorem linesYield {Item : Type} {Text : Item → List Char → Prop} {statement : Item → Statement}
    {items : List Item} {text : List Char} (lines : Lines Text items text)
    (each : ∀ item line, Text item line → Yields line [statement item]) :
    Yields text (items.map statement) := by
  induction lines with
  | none blank => exact blankYields blank
  | next blank isLine _ inductionHypothesis =>
    exact (blankYields blank).append ((each _ _ isLine).append inductionHypothesis)

end LintRepair.Toml
