/-
This file shows that parameters of different names are renamed in any order, and that a renamed line
stays as it is. The one exception is a name that another one becomes by its underscore.
-/

import LintRepair.Proofs.Fix.ParameterPosition
import LintRepair.Proofs.Fix.Removal

namespace LintRepair.Parameter

open Text Unicode

/-- Only one name is a hit at a place. -/
theorem hitUnique {first second : List Char} {before : Option Char} {text : List Char}
    (firstHit : hitAt first before text = true) (secondHit : hitAt second before text = true) :
    first = second := by
  obtain ⟨run, found, isFirst⟩ := (Option.any_eq_true _ _).mp firstHit
  obtain ⟨other, foundAgain, isSecond⟩ := (Option.any_eq_true _ _).mp secondHit
  obtain rfl : run = other := Option.some.inj (found.symm.trans foundAgain)
  simp only [isHit, Bool.and_eq_true, beq_iff_eq] at isFirst isSecond
  exact isFirst.1.symm.trans isSecond.1

/-- A word is a name that a renaming can look for. -/
def IsName (name : List Char) : Prop :=
  name ≠ [] ∧ ∀ character ∈ name, isWordCharacter character

instance (name : List Char) : Decidable (IsName name) :=
  inferInstanceAs (Decidable (_ ∧ _))

section

variable {name other : List Char} (isName : IsName name) (otherIsName : IsName other)

include isName otherIsName

/-- The hits of other names stay where they are. -/
theorem hitsStay (different : other ≠ name) (longer : other ≠ '_' :: name)
    (before : Option Char) (text : List Char) :
    hasHit other before (underscored name before text) = hasHit other before text := by
  induction text generalizing before with
  | nil => rfl
  | cons character text inductionHypothesis =>
    cases hit : hitAt name before (character :: text) with
    | false =>
      rw [underscoredKept hit, hasHitCons, hasHitCons, hitUnderscored, inductionHypothesis]
    | true =>
      have otherMisses : hitAt other before (character :: text) = false := by
        apply Bool.eq_false_iff.mpr
        intro otherHit
        exact different (hitUnique otherHit hit)
      have hitKept : hitAt name before (character :: underscored name (some character) text) =
          true := (hitUnderscored name before character text).trans hit
      rw [underscoredTaken hit, hasHitCons, hasHitCons,
        hitBehindUnderscore isName.1 isName.2 otherIsName.1 otherIsName.2 longer hitKept,
        hitAtBehind (by decide), inductionHypothesis, hasHitCons before, otherMisses]
      rfl

/-- What both names make of a line does not tell which of them came first. -/
theorem underscoredSwapped (longer : other ≠ '_' :: name) (shorter : name ≠ '_' :: other)
    (before : Option Char) (text : List Char) :
    underscored other before (underscored name before text) =
      underscored name before (underscored other before text) := by
  by_cases same : other = name
  · rw [same]
  induction text generalizing before with
  | nil => rfl
  | cons character text inductionHypothesis =>
    have hitStays : ∀ one another : List Char,
        hitAt one before (character :: underscored another (some character) text) =
          hitAt one before (character :: text) :=
      fun one another => hitUnderscored one before character text
    -- An underscore is put in before the character by at most one of the names.
    cases hit : hitAt name before (character :: text) with
    | true =>
      have otherMisses : hitAt other before (character :: text) = false := by
        apply Bool.eq_false_iff.mpr
        intro otherHit
        exact same (hitUnique otherHit hit)
      have missesUnderscore := hitBehindUnderscore isName.1 isName.2 otherIsName.1 otherIsName.2
        longer ((hitStays name name).trans hit)
      rw [underscoredTaken hit, underscoredKept missesUnderscore,
        underscoredKept (hitAtBehind (by decide) _), underscoredKept otherMisses,
        underscoredTaken ((hitStays name other).trans hit), inductionHypothesis]
    | false =>
      cases otherHit : hitAt other before (character :: text) with
      | true =>
        have missesUnderscore := hitBehindUnderscore otherIsName.1 otherIsName.2 isName.1 isName.2
          shorter ((hitStays other other).trans otherHit)
        rw [underscoredKept hit, underscoredTaken ((hitStays other name).trans otherHit),
          underscoredTaken otherHit, underscoredKept missesUnderscore,
          underscoredKept (hitAtBehind (by decide) _), inductionHypothesis]
      | false =>
        rw [underscoredKept hit, underscoredKept ((hitStays other name).trans otherHit),
          underscoredKept otherHit, underscoredKept ((hitStays name other).trans hit),
          inductionHypothesis]

end

end LintRepair.Parameter

namespace LintRepair.LineEdit

open Parameter

/-- The edits of two diagnostics make the same of a line in either order, and what one of them has
done stays done. -/
structure Interchangeable (edit : LineEdit) (first second : Diagnostic) : Prop where
  text : ∀ line, edit.step (edit.step line first) second = edit.step (edit.step line second) first
  number : ∀ line, (edit.changes line [first, second]).length =
    (edit.changes line [second, first]).length
  settled : ∀ line, edit.step line second = line →
    edit.step (edit.step line first) second = edit.step line first

theorem interchangeableAlike {edit : LineEdit} {first second : Diagnostic}
    (alike : edit first = edit second)
    (once : ∀ line, edit.step (edit.step line first) first = edit.step line first) :
    edit.Interchangeable first second := by
  have sameStep : ∀ line, edit.step line second = edit.step line first := by
    intro line
    rw [step, step, alike]
  refine ⟨fun line => ?_, fun line => ?_, fun line _ => ?_⟩
  · rw [sameStep, sameStep]
  · simp only [changes, sameStep]
    split <;> simp [once]
  · rw [sameStep, once]

/-- Edits commute when neither makes work for the other or takes it away. -/
theorem interchangeableApart {edit : LineEdit} {first second : Diagnostic}
    (text : ∀ line,
      edit.step (edit.step line first) second = edit.step (edit.step line second) first)
    (secondStays : ∀ line,
      edit.step (edit.step line first) second = edit.step line first ↔ edit.step line second = line)
    (firstStays : ∀ line,
      edit.step (edit.step line second) first = edit.step line second ↔
        edit.step line first = line) :
    edit.Interchangeable first second := by
  refine ⟨text, fun line => ?_, fun line => (secondStays line).mpr⟩
  by_cases firstIdle : edit.step line first = line
  · by_cases secondIdle : edit.step line second = line
    · simp [changes, firstIdle, secondIdle]
    · simp [changes, firstIdle, secondIdle, firstStays]
  · by_cases secondIdle : edit.step line second = line
    · simp [changes, firstIdle, secondIdle, secondStays]
    · simp [changes, firstIdle, secondIdle, firstStays, secondStays]

section

variable {edit : LineEdit} {first second : List Diagnostic}

theorem changesReordered (perm : first.Perm second)
    (interchangeable : ∀ left ∈ first, ∀ right ∈ first, edit.Interchangeable left right)
    (line : List Char) :
    first.foldl edit.step line = second.foldl edit.step line ∧
      (edit.changes line first).length = (edit.changes line second).length := by
  induction perm generalizing line with
  | nil => exact ⟨rfl, rfl⟩
  | @cons diagnostic first second _ inductionHypothesis =>
    have inTail : ∀ left ∈ first, ∀ right ∈ first, edit.Interchangeable left right :=
      fun left leftInside right rightInside => interchangeable left
        (List.mem_cons_of_mem diagnostic leftInside) right
        (List.mem_cons_of_mem diagnostic rightInside)
    obtain ⟨text, number⟩ := inductionHypothesis inTail (edit.step line diagnostic)
    refine ⟨text, ?_⟩
    have afterFirst : ∀ rest, edit.changes line (diagnostic :: rest) =
        edit.changes line [diagnostic] ++ edit.changes (edit.step line diagnostic) rest :=
      changesAppend edit line [diagnostic]
    rw [afterFirst first, afterFirst second, List.length_append, List.length_append, number]
  | @swap left right rest =>
    have pair := interchangeable right List.mem_cons_self left
      (List.mem_cons_of_mem right List.mem_cons_self)
    have leftFirst := changesAppend edit line [left, right] rest
    have rightFirst := changesAppend edit line [right, left] rest
    have sameText : [right, left].foldl edit.step line = [left, right].foldl edit.step line :=
      pair.text line
    refine ⟨congrArg (rest.foldl edit.step) sameText, ?_⟩
    rw [sameText] at rightFirst
    calc (edit.changes line ([right, left] ++ rest)).length
        = (edit.changes line [right, left]).length +
            (edit.changes ([left, right].foldl edit.step line) rest).length := by
          rw [rightFirst, List.length_append]
      _ = (edit.changes line [left, right]).length +
            (edit.changes ([left, right].foldl edit.step line) rest).length := by
          rw [pair.number]
      _ = (edit.changes line ([left, right] ++ rest)).length := by
          rw [leftFirst, List.length_append]
  | @trans first second third firstPerm _ firstHypothesis secondHypothesis =>
    obtain ⟨firstText, firstNumber⟩ := firstHypothesis interchangeable line
    obtain ⟨secondText, secondNumber⟩ := secondHypothesis
      (fun left leftInside right rightInside => interchangeable left
        (firstPerm.mem_iff.mpr leftInside) right (firstPerm.mem_iff.mpr rightInside)) line
    exact ⟨firstText.trans secondText, firstNumber.trans secondNumber⟩

theorem interchangeableOnLine (interchangeable : ∀ left ∈ first, ∀ right ∈ first,
      left.line = right.line → edit.Interchangeable left right) (number : Nat) :
    ∀ left ∈ first.filter fun diagnostic => diagnostic.line = number,
      ∀ right ∈ first.filter fun diagnostic => diagnostic.line = number,
        edit.Interchangeable left right := by
  intro left leftOnLine right rightOnLine
  obtain ⟨leftInside, leftLine⟩ := List.mem_filter.mp leftOnLine
  obtain ⟨rightInside, rightLine⟩ := List.mem_filter.mp rightOnLine
  exact interchangeable left leftInside right rightInside
    ((of_decide_eq_true leftLine).trans (of_decide_eq_true rightLine).symm)

/-- On every line the diagnostics may change places. -/
theorem applyReordered (safe : edit.Safe) (perm : first.Perm second)
    (interchangeable : ∀ left ∈ first, ∀ right ∈ first, left.line = right.line →
      edit.Interchangeable left right) (buffer : Buffer) :
    (edit.apply buffer first).1 = (edit.apply buffer second).1 ∧
      (edit.apply buffer first).2.length = (edit.apply buffer second).2.length := by
  have onLine := fun number => changesReordered
    (perm.filter fun diagnostic => diagnostic.line = number)
    (interchangeableOnLine interchangeable number)
  constructor
  · rw [applyBuffer, applyBuffer]
    exact Buffer.mapTextsCongr fun number line _ => (onLine number line).1
  · apply Diagnostic.lengthOfLines
    intro number
    rw [applyFixed safe, applyFixed safe]
    cases buffer.line? number with
    | none => rfl
    | some line => exact (onLine number line).2

end

theorem staysIdle {edit : LineEdit} {diagnostics : List Diagnostic} {diagnostic : Diagnostic}
    (interchangeable : ∀ other ∈ diagnostics, edit.Interchangeable other diagnostic)
    {line : List Char} (idle : edit.step line diagnostic = line) :
    edit.step (diagnostics.foldl edit.step line) diagnostic = diagnostics.foldl edit.step line := by
  induction diagnostics generalizing line with
  | nil => exact idle
  | cons first rest inductionHypothesis =>
    obtain ⟨firstFits, restFit⟩ := List.forall_mem_cons.mp interchangeable
    exact inductionHypothesis restFit (firstFits.settled line idle)

theorem stepsIdle {edit : LineEdit} {diagnostics : List Diagnostic} {line : List Char}
    (idle : ∀ diagnostic ∈ diagnostics, edit.step line diagnostic = line) :
    diagnostics.foldl edit.step line = line := by
  induction diagnostics with
  | nil => rfl
  | cons first rest inductionHypothesis =>
    obtain ⟨firstIdle, restIdle⟩ := List.forall_mem_cons.mp idle
    rw [List.foldl_cons, firstIdle, inductionHypothesis restIdle]

section

variable {edit : LineEdit} {diagnostics : List Diagnostic}
  (once : ∀ diagnostic ∈ diagnostics, ∀ line,
    edit.step (edit.step line diagnostic) diagnostic = edit.step line diagnostic)

include once

/-- When all have been answered, none of them finds anything left to do. -/
theorem stepsSettle
    (interchangeable : ∀ left ∈ diagnostics, ∀ right ∈ diagnostics,
      edit.Interchangeable left right) (line : List Char) :
    diagnostics.foldl edit.step (diagnostics.foldl edit.step line) =
      diagnostics.foldl edit.step line := by
  apply stepsIdle
  intro diagnostic inside
  obtain ⟨front, behind, whole⟩ := List.append_of_mem inside
  have behindFit : ∀ other ∈ behind, edit.Interchangeable other diagnostic := by
    intro other otherBehind
    exact interchangeable other (by simp [whole, otherBehind]) diagnostic inside
  rw [whole, List.foldl_append, List.foldl_cons]
  exact staysIdle behindFit (once diagnostic inside _)

theorem applySettles (safe : edit.Safe)
    (interchangeable : ∀ left ∈ diagnostics, ∀ right ∈ diagnostics, left.line = right.line →
      edit.Interchangeable left right) (buffer : Buffer) :
    let settled := (edit.apply buffer diagnostics).1
    edit.apply settled diagnostics = (settled, []) := by
  intro settled
  have onLine : ∀ number line,
      let answered := (diagnostics.filter fun diagnostic => diagnostic.line = number).foldl
        edit.step line
      (diagnostics.filter fun diagnostic => diagnostic.line = number).foldl edit.step answered =
        answered := by
    intro number line
    apply stepsSettle
    · intro diagnostic given
      exact once diagnostic (List.mem_of_mem_filter given)
    · exact interchangeableOnLine interchangeable number
  have settledBuffer : settled = buffer.mapTexts fun number line =>
      (diagnostics.filter fun diagnostic => diagnostic.line = number).foldl edit.step line :=
    applyBuffer edit buffer diagnostics
  have noneFixed : (edit.apply settled diagnostics).2.Perm [] := by
    apply Diagnostic.permOfLines
    intro number
    rw [applyFixed safe, settledBuffer, Buffer.lineOfMapTexts]
    cases buffer.line? number with
    | none => rfl
    | some line => exact (changes_eq_nil_iff safe _ _).mpr (onLine number line)
  refine Prod.ext ?_ (List.perm_nil.mp noneFixed)
  show (edit.apply settled diagnostics).1 = settled
  rw [applyBuffer, settledBuffer, Buffer.mapTextsMapTexts]
  exact Buffer.mapTextsCongr fun number line _ => onLine number line

end

section

variable {diagnostic : Diagnostic} {symbol : String}

theorem prefixUnnamed (unnamed : diagnostic.symbol = none) (line : List Char) :
    prefixParameter.step line diagnostic = line :=
  stepOfNone (by simp [prefixParameter, unnamed])

theorem prefixStep (named : diagnostic.symbol = some symbol) (isName : IsName symbol.toList)
    (line : List Char) :
    prefixParameter.step line diagnostic = underscored symbol.toList none line := by
  rw [step, prefixParameter, named, Option.bind_some, rename_eq isName.1 isName.2]
  cases hits : hasHit symbol.toList none line with
  | true => rfl
  | false => exact (underscoredNoHit hits).symm

/-- A renaming leaves a line alone exactly when its name is no parameter there. -/
theorem prefixIdle_iff (named : diagnostic.symbol = some symbol) (isName : IsName symbol.toList)
    {line : List Char} :
    prefixParameter.step line diagnostic = line ↔ hasHit symbol.toList none line = false := by
  constructor
  · intro same
    rw [← same, prefixStep named isName, noHitUnderscored isName.1 isName.2]
  · intro noHit
    rw [prefixStep named isName, underscoredNoHit noHit]

end

theorem underscoreAppended {name other : String} (equal : other.toList = '_' :: name.toList) :
    other = "_" ++ name :=
  String.toList_inj.mp (by simpa using equal)

/-- Renamings of different names commute, unless one name is the other with an underscore. -/
theorem prefixApart {first second : Diagnostic} {name other : String}
    (firstNamed : first.symbol = some name) (secondNamed : second.symbol = some other)
    (firstIsName : IsName name.toList) (secondIsName : IsName other.toList)
    (different : name.toList ≠ other.toList) (longer : other.toList ≠ '_' :: name.toList)
    (shorter : name.toList ≠ '_' :: other.toList) :
    prefixParameter.Interchangeable first second := by
  refine interchangeableApart (fun line => ?_) (fun line => ?_) fun line => ?_
  · rw [prefixStep firstNamed firstIsName, prefixStep secondNamed secondIsName,
      prefixStep secondNamed secondIsName, prefixStep firstNamed firstIsName]
    exact underscoredSwapped firstIsName secondIsName longer shorter none line
  · rw [prefixIdle_iff secondNamed secondIsName, prefixIdle_iff secondNamed secondIsName,
      prefixStep firstNamed firstIsName,
      hitsStay firstIsName secondIsName different.symm longer]
  · rw [prefixIdle_iff firstNamed firstIsName, prefixIdle_iff firstNamed firstIsName,
      prefixStep secondNamed secondIsName,
      hitsStay secondIsName firstIsName different shorter]

/-- The symbols of diagnostics are names, and on one line none of them is another one with an
underscore. -/
structure Renamable (diagnostics : List Diagnostic) : Prop where
  names : ∀ diagnostic ∈ diagnostics, ∀ name ∈ diagnostic.symbol, IsName name.toList
  apart : ∀ first ∈ diagnostics, ∀ second ∈ diagnostics, first.line = second.line →
    ∀ name ∈ first.symbol, second.symbol ≠ some ("_" ++ name)

section

variable {diagnostics : List Diagnostic} (renamable : Renamable diagnostics)

include renamable

theorem prefixOnce {diagnostic : Diagnostic} (inside : diagnostic ∈ diagnostics)
    (line : List Char) :
    prefixParameter.step (prefixParameter.step line diagnostic) diagnostic =
      prefixParameter.step line diagnostic := by
  cases named : diagnostic.symbol with
  | none => rw [prefixUnnamed named, prefixUnnamed named]
  | some symbol =>
    have isName := renamable.names diagnostic inside symbol named
    rw [prefixIdle_iff named isName, prefixStep named isName]
    exact noHitUnderscored isName.1 isName.2 none line

theorem prefixInterchangeable {first second : Diagnostic} (firstInside : first ∈ diagnostics)
    (secondInside : second ∈ diagnostics) (sameLine : first.line = second.line) :
    prefixParameter.Interchangeable first second := by
  cases firstNamed : first.symbol with
  | none =>
    have idle := prefixUnnamed firstNamed
    exact interchangeableApart (by simp [idle]) (by simp [idle]) (by simp [idle])
  | some name =>
    cases secondNamed : second.symbol with
    | none =>
      have idle := prefixUnnamed secondNamed
      exact interchangeableApart (by simp [idle]) (by simp [idle]) (by simp [idle])
    | some other =>
      by_cases same : name = other
      · apply interchangeableAlike
        · funext line
          rw [prefixParameter, prefixParameter, firstNamed, secondNamed, same]
        · exact prefixOnce renamable firstInside
      · have different : name.toList ≠ other.toList :=
          fun equal => same (String.toList_inj.mp equal)
        have longer : other.toList ≠ '_' :: name.toList := fun equal =>
          renamable.apart first firstInside second secondInside sameLine name firstNamed
            (secondNamed.trans (congrArg some (underscoreAppended equal)))
        have shorter : name.toList ≠ '_' :: other.toList := fun equal =>
          renamable.apart second secondInside first firstInside sameLine.symm other secondNamed
            (firstNamed.trans (congrArg some (underscoreAppended equal)))
        exact prefixApart firstNamed secondNamed
          (renamable.names first firstInside name firstNamed)
          (renamable.names second secondInside other secondNamed) different longer shorter

end

/-- The renamings of a text give one result and answer as many diagnostics in any order, and for the
same diagnostics there is nothing left to rename in the result. -/
theorem renamingsUnordered (text : List Char) (diagnostics : List Diagnostic)
    (renamable : Renamable diagnostics) :
    let result := prefixParameter.apply (Buffer.ofText text) diagnostics
    (∀ reordered : List Diagnostic, reordered.Perm diagnostics →
      let other := prefixParameter.apply (Buffer.ofText text) reordered
      other.1.contents = result.1.contents ∧ other.2.length = result.2.length) ∧
      prefixParameter.apply result.1 diagnostics = (result.1, []) := by
  intro result
  have interchangeable : ∀ left ∈ diagnostics, ∀ right ∈ diagnostics, left.line = right.line →
      prefixParameter.Interchangeable left right :=
    fun left leftInside right rightInside =>
      prefixInterchangeable renamable leftInside rightInside
  constructor
  · intro reordered perm
    obtain ⟨sameBuffer, sameNumber⟩ := applyReordered prefixParameterSafe perm.symm interchangeable
      (Buffer.ofText text)
    exact ⟨congrArg Buffer.contents sameBuffer.symm, sameNumber.symm⟩
  · exact applySettles (fun diagnostic inside => prefixOnce renamable inside) prefixParameterSafe
      interchangeable (Buffer.ofText text)

/-- Two parameters of one line, the first of them reported twice, and a report without a name. -/
def handlerDiagnostics : List Diagnostic :=
  [⟨⟨"a.ts"⟩, 1, some 9, "unused parameter", "'req' is never read.", some "req"⟩,
    ⟨⟨"a.ts"⟩, 1, some 24, "unused parameter", "'next' is never read.", some "next"⟩,
    ⟨⟨"a.ts"⟩, 1, none, "unused parameter", "'req' is never read.", some "req"⟩,
    ⟨⟨"a.ts"⟩, 1, none, "unused parameter", "A parameter is never read.", none⟩]

theorem handlerReordered :
    Renamable handlerDiagnostics ∧
      (prefixParameter.apply (Buffer.ofText "handler(req: Req, res, next) {}\r\n".toList)
        handlerDiagnostics.reverse).1.contents =
          "handler(_req: Req, res, _next) {}\r\n".toList ∧
      (prefixParameter.apply (Buffer.ofText "handler(req: Req, res, next) {}\r\n".toList)
        handlerDiagnostics.reverse).2.length = 2 := by
  have renamable : Renamable handlerDiagnostics := ⟨by decide +kernel, by decide +kernel⟩
  obtain ⟨contents, number⟩ := (renamingsUnordered "handler(req: Req, res, next) {}\r\n".toList
    handlerDiagnostics renamable).1 handlerDiagnostics.reverse (List.reverse_perm _)
  exact ⟨renamable, contents.trans (by decide +kernel), number.trans (by decide +kernel)⟩

/-- A name that another one becomes by its underscore is renamed again or not, as the order is. -/
example :
    let named (symbol : String) : Diagnostic :=
      ⟨⟨"a.ts"⟩, 1, none, "unused parameter", "A parameter is never read.", some symbol⟩
    (prefixParameter.apply (Buffer.ofText "f(x, _x)".toList) [named "x", named "_x"]).1.contents =
        "f(__x, __x)".toList ∧
      (prefixParameter.apply (Buffer.ofText "f(x, _x)".toList) [named "_x", named "x"]).1.contents =
        "f(_x, __x)".toList := by
  decide +kernel

end LintRepair.LineEdit
