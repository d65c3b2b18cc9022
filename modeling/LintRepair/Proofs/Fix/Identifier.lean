/-
This file follows the identifiers of a line, in which a dollar sign may stand beside word characters,
through a renaming. A dollar sign ends a word, so the renaming reaches into identifiers that hold one.
-/

import LintRepair.Proofs.Fix.ParameterPosition
import Mathlib.Data.List.DropRight

namespace LintRepair.Parameter

open Text Unicode

def isIdentifierCharacter (character : Char) : Bool :=
  isWordCharacter character || character == '$'

/-- The maximal runs of identifier characters in a text, each with the text behind it. -/
def identifiers (before : Option Char) (text : List Char) : List (List Char × List Char) :=
  runs isIdentifierCharacter before text

/-- An identifier is struck when its last word is the name and stands before a delimiter. -/
def isStruck (name : List Char) (identifier : List Char × List Char) : Bool :=
  identifier.1.rtakeWhile isWordCharacter == name && isDelimited identifier.2

/-- What a renaming makes of an identifier. -/
def renamedIdentifier (name : List Char) (identifier : List Char × List Char) : List Char :=
  if isStruck name identifier then identifier.1.rdropWhile isWordCharacter ++ '_' :: name
  else identifier.1

/-- The name ends the identifier, behind a dollar sign. -/
def endsDollared (name identifier : List Char) : Bool :=
  ('$' :: name).isSuffixOf identifier

/-- An identifier does not go on before a delimiter. -/
theorem delimitedStopsIdentifier {text : List Char} (delimited : isDelimited text = true) :
    text.head?.any isIdentifierCharacter = false := by
  obtain ⟨blanks, mark, rest, areBlank, delimits, rfl⟩ := delimited_iff.mp delimited
  have notBlank : ∀ character ∈ blanks, isIdentifierCharacter character = false := by
    intro character inside
    have blank := areBlank character inside
    have notDollar : character ≠ '$' := by
      rintro rfl
      exact absurd blank (by decide)
    simp [isIdentifierCharacter, blankNotWord blank, notDollar]
  have notDelimiter : isIdentifierCharacter mark = false := by
    have notDollar : mark ≠ '$' := by
      rintro rfl
      exact absurd delimits (by decide)
    simp [isIdentifierCharacter, delimiterNotWord delimits, notDollar]
  exact stopsBefore notBlank fun _ => notDelimiter

theorem identifierOfWord {character : Char} (isWord : isWordCharacter character = true) :
    isIdentifierCharacter character = true := by
  simp [isIdentifierCharacter, isWord]

theorem notWordOfOutside {character : Option Char}
    (outside : character.any isIdentifierCharacter = false) :
    character.any isWordCharacter = false := by
  cases character with
  | none => rfl
  | some character => exact (Bool.or_eq_false_iff.mp outside).1

/-- The last word of an identifier is the name when the name stands at its end behind no word
character. -/
theorem lastWord {name front : List Char} (isWord : ∀ character ∈ name, isWordCharacter character)
    (starts : front.getLast?.any isWordCharacter = false) :
    (front ++ name).rtakeWhile isWordCharacter = name ∧
      (front ++ name).rdropWhile isWordCharacter = front := by
  have inside : ∀ character ∈ name.reverse, isWordCharacter character := by simpa using isWord
  have stops : front.reverse.head?.any isWordCharacter = false := by simpa using starts
  constructor
  · rw [List.rtakeWhile, List.reverse_append, takeWhileRun inside stops, List.reverse_reverse]
  · rw [List.rdropWhile, List.reverse_append, dropWhileRun inside stops, List.reverse_reverse]

theorem struck_iff {name run behind : List Char}
    (isWord : ∀ character ∈ name, isWordCharacter character) :
    isStruck name (run, behind) = true ↔ isDelimited behind = true ∧
      ∃ front, front.getLast?.any isWordCharacter = false ∧ run = front ++ name := by
  rw [isStruck, Bool.and_eq_true, beq_iff_eq, and_comm]
  apply and_congr_right
  intro _
  constructor
  · intro ends
    refine ⟨run.rdropWhile isWordCharacter, ?_, ?_⟩
    · rw [List.rdropWhile, List.getLast?_reverse]
      exact dropWhileStops isWordCharacter run.reverse
    · rw [← ends, List.rdropWhile_append_rtakeWhile]
  · rintro ⟨front, starts, rfl⟩
    exact (lastWord isWord starts).1

theorem renamedStruck {name front behind : List Char}
    (isWord : ∀ character ∈ name, isWordCharacter character)
    (starts : front.getLast?.any isWordCharacter = false) (delimited : isDelimited behind = true) :
    renamedIdentifier name (front ++ name, behind) = front ++ '_' :: name := by
  have struck := (struck_iff isWord).mpr ⟨delimited, front, starts, rfl⟩
  rw [renamedIdentifier, if_pos struck, (lastWord isWord starts).2]

section

variable {name : List Char} (filled : name ≠ [])
  (isWord : ∀ character ∈ name, isWordCharacter character)

include filled isWord

/-- The identifier that begins with a hit is the name. -/
theorem identifierOfHit {before : Option Char} {text : List Char}
    (hit : hitAt name before text = true) :
    text.takeWhile isIdentifierCharacter = name ∧
      isDelimited (text.dropWhile isIdentifierCharacter) = true := by
  obtain ⟨-, behind, delimited, rfl⟩ := (hitAt_iff filled isWord).mp hit
  have inside : ∀ character ∈ name, isIdentifierCharacter character = true :=
    fun character isInside => identifierOfWord (isWord character isInside)
  have stops := delimitedStopsIdentifier delimited
  rw [takeWhileRun inside stops, dropWhileRun inside stops]
  exact ⟨rfl, delimited⟩

/-- The last word of an identifier gets its underscore whatever stands before it there. -/
theorem identifierStruck {before : Option Char} {front behind : List Char}
    (inside : ∀ character ∈ front, isIdentifierCharacter character = true)
    (starts : (front.getLast?.or before).any isWordCharacter = false)
    (delimited : isDelimited behind = true) :
    (underscored name before (front ++ (name ++ behind))).takeWhile isIdentifierCharacter =
      front ++ '_' :: name := by
  induction front generalizing before with
  | nil =>
    have struck : ∀ character ∈ '_' :: name, isIdentifierCharacter character = true :=
      List.forall_mem_cons.mpr ⟨by decide, fun character isInside =>
        identifierOfWord (isWord character isInside)⟩
    have notWord : before.any isWordCharacter = false := starts
    have stops : (underscored name (name.getLast?.or before) behind).head?.any
        isIdentifierCharacter = false :=
      delimitedStopsIdentifier ((delimitedUnderscored _ behind).trans delimited)
    rw [List.nil_append, underscoredHit filled isWord notWord delimited, ← List.cons_append,
      takeWhileRun struck stops, List.nil_append]
  | cons character front inductionHypothesis =>
    obtain ⟨first, others⟩ := List.forall_mem_cons.mp inside
    have noHit : hitAt name before (character :: (front ++ (name ++ behind))) = false := by
      -- A hit would take the identifier to be the name alone, and it is longer here.
      apply Bool.eq_false_iff.mpr
      intro hit
      have named : ∀ other ∈ character :: front ++ name, isIdentifierCharacter other = true :=
        List.forall_mem_append.mpr ⟨inside, fun other isInside =>
          identifierOfWord (isWord other isInside)⟩
      have whole := (identifierOfHit filled isWord hit).1
      rw [← List.append_assoc, ← List.cons_append, ← List.cons_append,
        takeWhileRun named (delimitedStopsIdentifier delimited)] at whole
      have lengths := congrArg List.length whole
      simp only [List.length_append, List.length_cons] at lengths
      omega
    rw [lastOfCons] at starts
    rw [List.cons_append, underscoredKept noHit, List.takeWhile_cons_of_pos first,
      inductionHypothesis others starts, List.cons_append]

theorem identifierKept {before : Option Char} {text : List Char}
    (noHit : ∀ front, text.takeWhile isIdentifierCharacter = front ++ name →
      (front.getLast?.or before).any isWordCharacter = false →
        isDelimited (text.dropWhile isIdentifierCharacter) = false) :
    (underscored name before text).takeWhile isIdentifierCharacter =
      text.takeWhile isIdentifierCharacter := by
  induction text generalizing before with
  | nil => rfl
  | cons character text inductionHypothesis =>
    have kept : hitAt name before (character :: text) = false := by
      apply Bool.eq_false_iff.mpr
      intro hit
      obtain ⟨whole, delimited⟩ := identifierOfHit filled isWord hit
      have starts := ((hitAt_iff filled isWord).mp hit).1
      rw [noHit [] whole starts] at delimited
      cases delimited
    rw [underscoredKept kept, List.takeWhile_cons, List.takeWhile_cons]
    split
    · next isInside =>
      rw [inductionHypothesis]
      intro front whole starts
      have later := noHit (character :: front)
      rw [lastOfCons, List.takeWhile_cons_of_pos isInside, List.dropWhile_cons_of_pos isInside,
        whole] at later
      exact later rfl starts
    · rfl

/-- An identifier that nothing precedes becomes what a renaming makes of it. -/
theorem identifierAhead {before : Option Char}
    (outside : before.any isIdentifierCharacter = false) (text : List Char) :
    (underscored name before text).takeWhile isIdentifierCharacter = renamedIdentifier name
      (text.takeWhile isIdentifierCharacter, text.dropWhile isIdentifierCharacter) := by
  have startsBehind : ∀ front : List Char, (front.getLast?.or before).any isWordCharacter = false ↔
      front.getLast?.any isWordCharacter = false := by
    intro front
    cases front.getLast? with
    | none => simpa using notWordOfOutside outside
    | some character => rfl
  cases struck : isStruck name (text.takeWhile isIdentifierCharacter,
      text.dropWhile isIdentifierCharacter) with
  | true =>
    obtain ⟨delimited, front, starts, whole⟩ := (struck_iff isWord).mp struck
    have parted : text = front ++ (name ++ text.dropWhile isIdentifierCharacter) := by
      rw [← List.append_assoc, ← whole, List.takeWhile_append_dropWhile]
    have inside : ∀ character ∈ front, isIdentifierCharacter character = true := by
      intro character isInside
      have isTaken : character ∈ text.takeWhile isIdentifierCharacter := by
        rw [whole]
        exact List.mem_append_left name isInside
      exact List.mem_takeWhile_imp isTaken
    rw [whole, renamedStruck isWord starts delimited,
      ← identifierStruck filled isWord inside ((startsBehind front).mpr starts) delimited, ← parted]
  | false =>
    rw [renamedIdentifier, if_neg (by simp [struck])]
    apply identifierKept filled isWord
    intro front whole starts
    apply Bool.eq_false_iff.mpr
    intro delimited
    have isStruck := (struck_iff isWord).mpr
      ⟨delimited, front, (startsBehind front).mp starts, whole⟩
    rw [struck] at isStruck
    cases isStruck

theorem renamed_eq_nil_iff {run behind : List Char} :
    renamedIdentifier name (run, behind) = [] ↔ run = [] := by
  rw [renamedIdentifier]
  split
  · next struck =>
    obtain ⟨-, front, -, rfl⟩ := (struck_iff isWord).mp struck
    simp [filled]
  · rfl

theorem identifierAtRenamed {before behind : Option Char}
    (alike : behind.any isIdentifierCharacter = before.any isIdentifierCharacter)
    (text : List Char) :
    (runAt? isIdentifierCharacter behind (underscored name before text)).map Prod.fst =
      (runAt? isIdentifierCharacter before text).map (renamedIdentifier name) := by
  cases outside : before.any isIdentifierCharacter with
  | true =>
    rw [runAtBehind (alike.trans outside), runAtBehind outside]
    rfl
  | false =>
    have starts : ∀ place : Option Char, place.any isIdentifierCharacter = false →
        ∀ ahead, runAt? isIdentifierCharacter place ahead = run? isIdentifierCharacter ahead :=
      fun place notInside ahead => if_neg (by simp [notInside])
    rw [starts _ (alike.trans outside), starts _ outside, run_eq, run_eq,
      identifierAhead filled isWord outside text]
    by_cases empty : text.takeWhile isIdentifierCharacter = []
    · rw [if_pos ((renamed_eq_nil_iff filled isWord).mpr empty), if_pos empty]
      rfl
    · rw [if_neg fun none => empty ((renamed_eq_nil_iff filled isWord).mp none), if_neg empty]
      rfl

/-- A renaming changes the identifiers one by one and moves none. -/
theorem identifiersRenamed {before behind : Option Char}
    (alike : behind.any isIdentifierCharacter = before.any isIdentifierCharacter)
    (text : List Char) :
    (identifiers behind (underscored name before text)).map Prod.fst =
      (identifiers before text).map (renamedIdentifier name) := by
  induction text generalizing before behind with
  | nil => rfl
  | cons character text inductionHypothesis =>
    have first := identifierAtRenamed filled isWord alike (character :: text)
    have later := @inductionHypothesis (some character) (some character) rfl
    simp only [identifiers] at later ⊢
    -- Behind an underscore no identifier begins, so it adds no member of its own.
    cases hit : hitAt name before (character :: text) with
    | true =>
      have underscoreGoesOn : (some '_').any isIdentifierCharacter = true := by decide
      rw [underscoredTaken hit] at first ⊢
      rw [runs, runs, runs, runAtBehind underscoreGoesOn, Option.toList_none, List.nil_append,
        List.map_append, List.map_append, ← Option.toList_map, first, Option.toList_map, later]
    | false =>
      rw [underscoredKept hit] at first ⊢
      rw [runs, runs, List.map_append, List.map_append, ← Option.toList_map, first,
        Option.toList_map, later]

theorem renamedLine_eq (line : List Char) :
    (rename? line name).getD line = underscored name none line := by
  rw [rename_eq filled isWord]
  cases hits : hasHit name none line with
  | true => rfl
  | false => exact (underscoredNoHit hits).symm

end

section

variable {name : List Char} (isWord : ∀ character ∈ name, isWordCharacter character)

include isWord

/-- In an identifier the last word begins with the identifier or behind a dollar sign. -/
theorem struckIdentifier_iff {run behind : List Char}
    (inside : ∀ character ∈ run, isIdentifierCharacter character) :
    isStruck name (run, behind) = true ↔
      isDelimited behind = true ∧ (run = name ∨ endsDollared name run = true) := by
  rw [struck_iff isWord, endsDollared, List.isSuffixOf_iff_suffix]
  apply and_congr_right
  intro _
  constructor
  · rintro ⟨front, starts, rfl⟩
    rcases List.eq_nil_or_concat front with rfl | ⟨others, last, rfl⟩
    · exact .inl rfl
    · have lastInside : isIdentifierCharacter last = true := inside last (by simp)
      have lastNotWord : isWordCharacter last = false := by simpa using starts
      obtain rfl : last = '$' := by simpa [isIdentifierCharacter, lastNotWord] using lastInside
      exact .inr ⟨others, by simp⟩
  · rintro (rfl | ⟨others, rfl⟩)
    · exact ⟨[], rfl, rfl⟩
    · exact ⟨others ++ ['$'], by simp; decide, by simp⟩

/-- The underscore parts the name from its dollar sign. -/
theorem dollaredRenamed {run behind : List Char}
    (inside : ∀ character ∈ run, isIdentifierCharacter character)
    (dollared : endsDollared name (renamedIdentifier name (run, behind)) = true) :
    endsDollared name run = true ∧ isDelimited behind = false := by
  cases struck : isStruck name (run, behind) with
  | true =>
    rw [renamedIdentifier, if_pos struck, endsDollared, List.isSuffixOf_iff_suffix] at dollared
    have ends : '_' :: name <:+ run.rdropWhile isWordCharacter ++ '_' :: name :=
      List.suffix_append _ _
    have nested := List.suffix_of_suffix_length_le dollared ends (Nat.le_refl _)
    cases nested.eq_of_length rfl
  | false =>
    rw [renamedIdentifier, if_neg (by simp [struck])] at dollared
    refine ⟨dollared, Bool.eq_false_iff.mpr fun delimited => ?_⟩
    rw [(struckIdentifier_iff isWord inside).mpr ⟨delimited, .inr dollared⟩] at struck
    cases struck

end

theorem identifierInside {before : Option Char} {text : List Char}
    {identifier : List Char × List Char} (found : identifier ∈ identifiers before text) :
    ∀ character ∈ identifier.1, isIdentifierCharacter character :=
  (memRuns.mp found).2.1

theorem keptSublist {α β : Type} {old new : α → β} {kept : β → Bool} {members : List α}
    (unchanged : ∀ member ∈ members, kept (old member) = true → new member = old member) :
    ((members.map old).filter kept).Sublist (members.map new) := by
  induction members with
  | nil => exact List.Sublist.slnil
  | cons member members inductionHypothesis =>
    obtain ⟨first, others⟩ := List.forall_mem_cons.mp unchanged
    rw [List.map_cons, List.map_cons, List.filter_cons]
    split
    · next isKept =>
      rw [first isKept]
      exact (inductionHypothesis others).cons_cons _
    · exact (inductionHypothesis others).cons _

/-- If as many members hold a property afterwards as before, and each of them held it before and was
not struck, then none was struck that held it. -/
theorem noneStruck {α : Type} {before after struck : α → Bool} {members : List α}
    (asMany : members.countP before ≤ members.countP after)
    (unstruck : ∀ member ∈ members, after member = true →
      before member = true ∧ struck member = false) :
    ∀ member ∈ members, before member = true → struck member = false := by
  have parted := List.countP_eq_countP_filter_add members before struck
  have stillHeld : members.countP after ≤
      (members.filter fun member => !struck member).countP before := by
    rw [List.countP_filter]
    refine List.countP_mono_left fun member found holds => ?_
    obtain ⟨heldBefore, notStruck⟩ := unstruck member found holds
    simp [heldBefore, notStruck]
  have none : (members.filter struck).countP before = 0 := by omega
  rw [List.countP_eq_zero] at none
  intro member found holds
  exact Bool.eq_false_iff.mpr fun isStruck =>
    none member (List.mem_filter.mpr ⟨found, isStruck⟩) holds

theorem dollaredNotName {name identifier : List Char}
    (dollared : endsDollared name identifier = true) : identifier ≠ name := by
  rintro rfl
  have longer := (List.isSuffixOf_iff_suffix.mp dollared).length_le
  rw [List.length_cons] at longer
  omega

/-- A renaming leaves the identifiers other than the name as they are and in their order exactly if
none of them ends in a dollar sign and the name before a delimiter. A dollar sign is no word
character, so the name behind it is a whole word. -/
theorem identifiersKept_iff (line : List Char) {name : List Char} (filled : name ≠ [])
    (isWord : ∀ character ∈ name, isWordCharacter character) :
    (((identifiers none line).map Prod.fst).filter (· ≠ name)).Sublist
        ((identifiers none ((rename? line name).getD line)).map Prod.fst) ↔
      ∀ identifier ∈ identifiers none line,
        endsDollared name identifier.1 = true → isDelimited identifier.2 = false := by
  rw [renamedLine_eq filled isWord, identifiersRenamed filled isWord rfl]
  constructor
  · intro kept
    -- A struck identifier no longer ends in a dollar sign and the name, and no other comes to. So the
    -- number of those that do tells whether one was struck.
    refine @noneStruck _ (endsDollared name ∘ Prod.fst) (endsDollared name ∘ renamedIdentifier name)
      (isDelimited ∘ Prod.snd) _ ?_
      fun identifier found => dollaredRenamed isWord (identifierInside found)
    have counts := kept.countP_le (p := endsDollared name)
    rw [List.countP_filter, List.countP_map, List.countP_map] at counts
    refine le_trans (List.countP_mono_left fun identifier _ dollared => ?_) counts
    have dollared : endsDollared name identifier.1 = true := dollared
    simp [dollared, dollaredNotName dollared]
  · intro undelimited
    apply keptSublist
    intro identifier found other
    refine if_neg fun struck => ?_
    obtain ⟨delimited, whole | dollared⟩ :=
      (struckIdentifier_iff isWord (identifierInside found)).mp struck
    · simp [whole] at other
    · rw [undelimited identifier found dollared] at delimited
      cases delimited

/-- Longer names, and the name behind a dollar sign where no delimiter follows. -/
theorem dollarsKept :
    "x".toList ≠ [] ∧ (∀ character ∈ "x".toList, isWordCharacter character) ∧
      (∀ identifier ∈ identifiers none "f(x: T, xs, x$, $x = y$x.z)".toList,
        endsDollared "x".toList identifier.1 = true → isDelimited identifier.2 = false) ∧
      (((identifiers none "f(x: T, xs, x$, $x = y$x.z)".toList).map Prod.fst).filter
          (· ≠ "x".toList)).Sublist
        ((identifiers none ((rename? "f(x: T, xs, x$, $x = y$x.z)".toList "x".toList).getD
          "f(x: T, xs, x$, $x = y$x.z)".toList)).map Prod.fst) := by
  have filled : "x".toList ≠ [] := by decide
  have isWord : ∀ character ∈ "x".toList, isWordCharacter character := by decide
  have undelimited : ∀ identifier ∈ identifiers none "f(x: T, xs, x$, $x = y$x.z)".toList,
      endsDollared "x".toList identifier.1 = true → isDelimited identifier.2 = false := by
    decide +kernel
  exact ⟨filled, isWord, undelimited, (identifiersKept_iff _ filled isWord).mpr undelimited⟩

/-- A parameter is renamed whose name ends in a dollar sign and the name. -/
theorem dollaredTouched : ¬ ∀ line name : List Char, name ≠ [] →
    (∀ character ∈ name, isWordCharacter character) →
      (((identifiers none line).map Prod.fst).filter (· ≠ name)).Sublist
        ((identifiers none ((rename? line name).getD line)).map Prod.fst) := by
  intro kept
  exact absurd (kept "f($x: T, x: U)".toList "x".toList (by decide) (by decide))
    (by decide +kernel)

end LintRepair.Parameter
