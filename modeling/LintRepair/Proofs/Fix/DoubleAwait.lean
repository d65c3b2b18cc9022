/-
This file compares the dynamic imports that a conversion awaits with those that it found awaited
before: how many there can be of the second kind, and which ones they are.
-/

import LintRepair.Proofs.Fix.RequireImport
import LintRepair.Proofs.Text.Span

namespace LintRepair.RequireImport

open Text Unicode

/-- The whole word `await` and white space stand between two places of a text. -/
def AwaitBetween (text : List Char) (start stop : Nat) : Prop :=
  ∃ before blanks behind, text = before ++ "await".toList ++ blanks ++ behind ∧
    before.length = start ∧ (before ++ "await".toList ++ blanks).length = stop ∧
    blanks ≠ [] ∧ (∀ character ∈ blanks, isBlank character) ∧
    before.getLast?.any isWordCharacter = false

/-- A text ends in the whole word `await` and white space. -/
def FollowsAwait (front : List Char) : Prop :=
  ∃ before blanks, front = before ++ "await".toList ++ blanks ∧ blanks ≠ [] ∧
    (∀ character ∈ blanks, isBlank character) ∧ before.getLast?.any isWordCharacter = false

/-- The end of a text is read from its last character to the front. -/
def endsInAwait (front : List Char) : Bool :=
  ((blanks? front.reverse).bind (literal? "await".toList.reverse)).any
    fun turned => !turned.head?.any isWordCharacter

theorem endsInAwait_iff (front : List Char) : endsInAwait front = true ↔ FollowsAwait front := by
  unfold endsInAwait FollowsAwait
  simp only [Option.any_eq_true, Option.bind_eq_some_iff, literal_eq_some_iff,
    Bool.not_eq_true']
  constructor
  · rintro ⟨turned, ⟨_, readBlanks, rfl⟩, boundary⟩
    obtain ⟨blanks, notEmpty, areBlank, whole⟩ := takesBlanks readBlanks
    refine ⟨turned.reverse, blanks.reverse, ?_, by simpa using notEmpty, by simpa using areBlank,
      by simpa using boundary⟩
    have turnedBack := congrArg List.reverse whole
    simpa using turnedBack
  · rintro ⟨before, blanks, rfl, notEmpty, areBlank, boundary⟩
    refine ⟨before.reverse, ⟨"await".toList.reverse ++ before.reverse, ?_, rfl⟩,
      by simpa using boundary⟩
    rw [List.reverse_append, List.reverse_append]
    exact readsBlanks (by simpa using notEmpty) (by simpa using areBlank) rfl

instance : DecidablePred FollowsAwait := fun front =>
  decidable_of_iff (endsInAwait front = true) (endsInAwait_iff front)

theorem followsAwaitTake {text : List Char} {stop : Nat} (inside : stop ≤ text.length) :
    FollowsAwait (text.take stop) ↔ ∃ start, AwaitBetween text start stop := by
  constructor
  · rintro ⟨before, blanks, front, notEmpty, areBlank, boundary⟩
    refine ⟨before.length, before, blanks, text.drop stop, ?_, rfl, ?_, notEmpty, areBlank,
      boundary⟩
    · rw [← front, List.take_append_drop]
    · rw [← front, List.length_take, Nat.min_eq_left inside]
  · rintro ⟨start, before, blanks, behind, rfl, -, stops, notEmpty, areBlank, boundary⟩
    exact ⟨before, blanks, List.take_left' stops, notEmpty, areBlank, boundary⟩

section

variable {text : List Char} {start stop : Nat}

/-- The word `await` ends where the white space before a place begins. -/
theorem AwaitBetween.start_eq (between : AwaitBetween text start stop) :
    start + 5 + ((text.take stop).reverse.takeWhile isBlank).length = stop := by
  obtain ⟨before, blanks, behind, rfl, rfl, stops, -, areBlank, -⟩ := between
  have front : (before ++ "await".toList ++ blanks ++ behind).take stop =
      before ++ "await".toList ++ blanks := List.take_left' stops
  have turned : (before ++ "await".toList ++ blanks).reverse.takeWhile isBlank =
      blanks.reverse := by
    rw [List.reverse_append, List.takeWhile_append_of_pos (by simpa using areBlank),
      List.reverse_append]
    exact List.append_nil _
  have word : "await".toList.length = 5 := rfl
  rw [front, turned, List.length_reverse]
  simp only [List.length_append, word] at stops
  omega

theorem AwaitBetween.unique {other : Nat} (between : AwaitBetween text start stop)
    (otherBetween : AwaitBetween text other stop) : start = other := by
  have first := between.start_eq
  have second := otherBetween.start_eq
  omega

theorem AwaitBetween.noParenthesis (between : AwaitBetween text start stop) {index : Nat}
    (behindStart : start ≤ index) (beforeStop : index < stop) :
    text[index]? ≠ some '(' ∧ text[index]? ≠ some ')' := by
  obtain ⟨before, blanks, behind, rfl, rfl, stops, -, areBlank, -⟩ := between
  have inLead : (before ++ "await".toList ++ blanks ++ behind)[index]? =
      ("await".toList ++ blanks)[index - before.length]? := by
    rw [List.getElem?_append_left (by omega), List.append_assoc,
      List.getElem?_append_right behindStart]
  have absent : ∀ parenthesis, isBlank parenthesis = false → parenthesis ∉ "await".toList →
      (before ++ "await".toList ++ blanks ++ behind)[index]? ≠ some parenthesis := by
    intro parenthesis notBlank notLetter known
    rw [inLead] at known
    rcases List.mem_append.mp (List.mem_of_getElem? known) with inWord | inBlanks
    · exact notLetter inWord
    · rw [areBlank parenthesis inBlanks] at notBlank
      cases notBlank
  exact ⟨absent '(' (by decide) (by decide), absent ')' (by decide) (by decide)⟩

end

/-- What the characters of a dynamic import tell about its place. -/
structure DynamicPlace (text : List Char) (span : Span) : Prop where
  size : span.start + 11 ≤ span.stop
  opened : text[span.start + 6]? = some '('
  closed : text[span.stop - 1]? = some ')'
  quoted : text[span.start + 7]?.any isQuote = true
  unquoted : ∀ index, span.start + 7 < index → index + 2 < span.stop →
    text[index]?.any isQuote = false

theorem dynamicPlace {text : List Char} {span : Span} (isMatch : MatchesAt dynamic text span) :
    DynamicPlace text span := by
  obtain ⟨front, part, behind, source, whole, -, start, stop, matched⟩ := isMatch
  obtain ⟨_, ⟨first, last, isFirst, isLast, notEmpty, noQuotes, rfl⟩, rfl⟩ :=
    takesDynamic.form matched
  have positive := List.length_pos_iff.mpr notEmpty
  have size : span.stop = span.start + (source.length + 10) := by
    rw [← stop, ← start]
    simp
  have spelled : text = front ++ 'i' :: 'm' :: 'p' :: 'o' :: 'r' :: 't' :: '(' :: first ::
      (source ++ last :: ')' :: behind) := by
    rw [whole]
    simp
  have ahead : ∀ offset, text[span.start + offset]? = ('i' :: 'm' :: 'p' :: 'o' :: 'r' :: 't' ::
      '(' :: first :: (source ++ last :: ')' :: behind))[offset]? := by
    intro offset
    rw [spelled, List.getElem?_append_right (by omega)]
    congr 1
    omega
  refine ⟨by omega, ahead 6, ?_, ?_, ?_⟩
  · have lastPlace : span.stop - 1 = span.start + (source.length + 1 + 8) := by omega
    rw [lastPlace, ahead]
    simp
  · rw [ahead 7]
    exact isFirst
  · intro index behindQuote beforeQuote
    obtain ⟨offset, rfl⟩ : ∃ offset, index = span.start + (offset + 8) :=
      ⟨index - span.start - 8, by omega⟩
    have inSource : offset < source.length := by omega
    rw [ahead]
    simp only [List.getElem?_cons_succ]
    rw [List.getElem?_append_left inSource, List.getElem?_eq_getElem inSource]
    exact noQuotes _ (List.getElem_mem inSource)

/-- A dynamic import that begins later ends later, because the first quotation mark behind its own
opening one closes the earlier import at the latest. -/
theorem dynamicStaggered (text : List Char) : Staggered dynamic text := by
  intro first second isFirst isSecond before
  have firstPlace := dynamicPlace isFirst
  have secondPlace := dynamicPlace isSecond
  have closes : ¬ (second.start + 7) + 2 < first.stop := by
    intro inside
    have unquoted := firstPlace.unquoted (second.start + 7) (by omega) inside
    rw [secondPlace.quoted] at unquoted
    cases unquoted
  have size := secondPlace.size
  omega

/-- An awaited import as it is written. -/
theorem takesAwaited {before : Option Char} {text source behind : List Char}
    (matched : awaited before text = some (source, behind)) :
    before.any isWordCharacter = false ∧ ∃ blanks inner, blanks ≠ [] ∧
      (∀ character ∈ blanks, isBlank character) ∧ inner ≠ [] ∧
      text = "await".toList ++ blanks ++ inner ++ behind ∧
      dynamic none (inner ++ behind) = some (source, behind) := by
  simp only [awaited, Option.bind_eq_bind, Option.bind_eq_some_iff, Option.guard_eq_some',
    literal_eq_some_iff] at matched
  obtain ⟨-, boundary, afterAwait, rfl, afterBlanks, readBlanks, imports⟩ := matched
  obtain ⟨blanks, notEmpty, areBlank, rfl⟩ := takesBlanks readBlanks
  obtain ⟨inner, form, rfl⟩ := takesDynamic none _ source behind imports
  exact ⟨(wordStarts_iff (by decide)).mp boundary, blanks, inner, notEmpty, areBlank,
    dynamicFilled _ _ form, by simp, imports⟩

theorem awaitedConsumes : Consumes awaited := by
  intro before text source behind matched
  obtain ⟨-, blanks, inner, -, -, filled, rfl, -⟩ := takesAwaited matched
  exact ⟨_, List.append_ne_nil_of_right_ne_nil _ filled, rfl⟩

/-- An awaited import is a dynamic import behind the word `await`. -/
theorem awaitedMatches_iff {text : List Char} {span : Span} :
    MatchesAt awaited text span ↔
      ∃ start, MatchesAt dynamic text ⟨start, span.stop⟩ ∧ AwaitBetween text span.start start := by
  constructor
  · rintro ⟨front, part, behind, source, rfl, -, start, stop, matched⟩
    obtain ⟨wordStarts, blanks, inner, notEmpty, areBlank, filled, spelled, imports⟩ :=
      takesAwaited matched
    obtain rfl := List.append_cancel_right spelled
    refine ⟨(front ++ "await".toList ++ blanks).length,
      ⟨front ++ "await".toList ++ blanks, inner, behind, source, by simp, filled, rfl, ?_,
        imports⟩,
      ⟨front, blanks, inner ++ behind, by simp, start, rfl, notEmpty, areBlank, wordStarts⟩⟩
    rw [← stop]
    simp only [List.length_append]
    omega
  · rintro ⟨place, ⟨front, inner, behind, source, whole, -, place_eq, stop, matched⟩,
      ⟨before, blanks, rest, spelled, start, place_eq', notEmpty, areBlank, wordStarts⟩⟩
    rw [whole, List.append_assoc] at spelled
    obtain ⟨rfl, rfl⟩ := List.append_inj spelled (place_eq.trans place_eq'.symm)
    obtain ⟨argument, -, rfl⟩ := takesDynamic.form matched
    refine ⟨before, "await".toList ++ blanks ++ ("import".toList ++ argument), behind, source,
      by rw [whole]; simp, by simp, start, ?_, ?_⟩
    · rw [← stop]
      simp only [List.length_append]
      omega
    · have boundary : isWordBoundary before.getLast? (some 'a') = true :=
        (wordStarts_iff (by decide)).mpr wordStarts
      have readWord : literal? "await".toList
          ("await".toList ++ blanks ++ ("import".toList ++ argument) ++ behind) =
            some (blanks ++ ("import".toList ++ argument ++ behind)) := by
        rw [List.append_assoc, List.append_assoc]
        exact literalAppend _ _
      have readBlanks : blanks? (blanks ++ ("import".toList ++ argument ++ behind)) =
          some ("import".toList ++ argument ++ behind) := readsBlanks notEmpty areBlank rfl
      simp only [awaited, Option.bind_eq_bind, Option.bind_eq_some_iff, Option.guard_eq_some']
      exact ⟨(), boundary, _, readWord, _, readBlanks, matched⟩

/-- If no dynamic imports overlap, no awaited imports do. -/
theorem awaitedApart {text : List Char} (apart : Apart dynamic text) : Apart awaited text := by
  intro first second isFirst isSecond before
  obtain ⟨firstInner, firstImport, firstLead⟩ := awaitedMatches_iff.mp isFirst
  obtain ⟨secondInner, secondImport, secondLead⟩ := awaitedMatches_iff.mp isSecond
  have firstPlace := dynamicPlace firstImport
  have secondPlace := dynamicPlace secondImport
  have firstSize := firstPlace.size
  have secondSize := secondPlace.size
  have firstStart := firstLead.start_eq
  have secondStart := secondLead.start_eq
  simp only at firstSize secondSize
  have inOrder : firstInner < secondInner := by
    by_contra notBefore
    rcases Nat.lt_or_eq_of_le (Nat.le_of_not_lt notBefore) with earlier | same
    · -- The second import would stand between the first `await` and its import.
      have within := apart _ _ secondImport firstImport earlier
      simp only at within
      have inLead : first.start ≤ secondInner + 6 := by omega
      exact (firstLead.noParenthesis inLead (by omega)).1 secondPlace.opened
    · have sameStart := firstLead.unique (same ▸ secondLead)
      omega
  have innerApart := apart _ _ firstImport secondImport inOrder
  simp only at innerApart
  by_contra overlap
  have inLead : second.start ≤ first.stop - 1 := by omega
  exact (secondLead.noParenthesis inLead (by omega)).2 firstPlace.closed

/-- There are no more awaited imports than imports, because the imports inside the awaited ones
stand side by side. -/
theorem awaitedBound (text : List Char) :
    (occurrences awaited text).length ≤ (occurrences dynamic text).length := by
  rw [← spansLength, ← spansLength]
  have imports : ∀ span ∈ spans awaited text, ∃ inner, MatchesAt dynamic text inner ∧
      span.start ≤ inner.start ∧ inner.stop = span.stop := by
    intro span isSpan
    obtain ⟨start, isImport, between⟩ := awaitedMatches_iff.mp (spansMatch awaitedConsumes isSpan)
    have ahead := between.start_eq
    exact ⟨⟨start, span.stop⟩, isImport, by simp only; omega, rfl⟩
  choose! inner isImport startsBehind sameStop using imports
  rw [← List.length_map inner]
  apply mostSpans dynamicConsumes (dynamicStaggered text)
  · apply List.pairwise_map.mpr
    apply (spansOrdered awaitedConsumes text).imp_of_mem
    intro first second isFirst isSecond ordered
    have firstStop := sameStop first isFirst
    have secondStart := startsBehind second isSecond
    omega
  · intro span inChain
    obtain ⟨other, isSpan, rfl⟩ := List.mem_map.mp inChain
    exact isImport other isSpan

/-- Without overlaps, the awaited imports are the imports behind the whole word `await`. -/
theorem awaitedExact {text : List Char} (apart : Apart dynamic text) :
    (occurrences awaited text).length =
      ((spans dynamic text).filter fun span => FollowsAwait (text.take span.start)).length := by
  have sameStops : ((spans awaited text).map Span.stop).Perm
      (((spans dynamic text).filter fun span => FollowsAwait (text.take span.start)).map
        Span.stop) := by
    apply (List.perm_ext_iff_of_nodup (spanStopsNodup awaitedConsumes text)
      ((spanStopsNodup dynamicConsumes text).sublist (List.filter_sublist.map Span.stop))).mpr
    intro stop
    simp only [List.mem_map, List.mem_filter, decide_eq_true_eq,
      memSpans awaitedConsumes (awaitedApart apart), memSpans dynamicConsumes apart]
    constructor
    · rintro ⟨span, isAwaited, rfl⟩
      obtain ⟨start, isImport, between⟩ := awaitedMatches_iff.mp isAwaited
      have bounds := isImport.bounds
      simp only at bounds
      exact ⟨⟨start, span.stop⟩, ⟨isImport, (followsAwaitTake (by simp only; omega)).mpr
        ⟨span.start, between⟩⟩, rfl⟩
    · rintro ⟨span, ⟨isImport, follows⟩, rfl⟩
      have bounds := isImport.bounds
      obtain ⟨start, between⟩ := (followsAwaitTake (by omega)).mp follows
      exact ⟨⟨start, span.stop⟩, awaitedMatches_iff.mpr ⟨span.start, isImport, between⟩, rfl⟩
  have sameLength := sameStops.length_eq
  rw [List.length_map, List.length_map] at sameLength
  rw [← spansLength, sameLength]

end LintRepair.RequireImport
