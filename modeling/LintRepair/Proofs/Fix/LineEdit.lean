/-
This file reduces the edits of a buffer to what happens on each line alone: the diagnostics of one
line act on it one after the other, and no line sees the diagnostics of another.
-/

import LintRepair.Fix.LineEdit
import LintRepair.Proofs.Buffer
import LintRepair.Proofs.Diagnostic.LineOrder
import LintRepair.Proofs.Fix.Parameter

namespace LintRepair.LineEdit

/-- The text of a line after one diagnostic. -/
def step (edit : LineEdit) (line : List Char) (diagnostic : Diagnostic) : List Char :=
  (edit diagnostic line).getD line

/-- The diagnostics that change a line on which they act one after the other. -/
def changes (edit : LineEdit) : List Char → List Diagnostic → List Diagnostic
  | _, [] => []
  | line, diagnostic :: rest =>
    if edit.step line diagnostic = line then changes edit line rest
    else diagnostic :: changes edit (edit.step line diagnostic) rest

/-- An edit leads a line on, so that no edits lead it back. It brings in no line feed and no
carriage return at the end, and it puts nothing into an empty line. -/
structure Safe (edit : LineEdit) : Prop where
  advances : ∃ rank : List Char → Nat, ∀ {diagnostic line text},
    edit diagnostic line = some text → rank line < rank text
  noLineFeed : ∀ {diagnostic line text}, edit diagnostic line = some text →
    '\n' ∉ line → '\n' ∉ text
  noReturn : ∀ {diagnostic line text}, edit diagnostic line = some text →
    line.getLast? ≠ some '\r' → text.getLast? ≠ some '\r'
  emptyStays : ∀ diagnostic, edit diagnostic [] = none

theorem blankDeclarationSafe : blankDeclaration.Safe := by
  have blanked : ∀ {diagnostic line text}, blankDeclaration diagnostic line = some text →
      Declaration.isRemovable line = true ∧ text = [] := by
    intro diagnostic line text edited
    simp only [blankDeclaration] at edited
    split at edited
    · next removable => exact ⟨removable, by simpa using edited.symm⟩
    · cases edited
  refine ⟨⟨fun line => if line = [] then 1 else 0, fun {_ line _} edited => ?_⟩,
    fun edited _ => ?_, fun edited _ => ?_, fun _ => rfl⟩
  · obtain ⟨removable, rfl⟩ := blanked edited
    have notEmpty : line ≠ [] := by
      rintro rfl
      cases removable
    simp [notEmpty]
  · simp [(blanked edited).2]
  · simp [(blanked edited).2]

theorem prefixParameterRenames {diagnostic : Diagnostic} {line text : List Char}
    (edited : prefixParameter diagnostic line = some text) :
    ∃ name, Parameter.rename? line name = some text := by
  obtain ⟨symbol, -, renames⟩ := Option.bind_eq_some_iff.mp edited
  exact ⟨symbol.toList, renames⟩

theorem prefixParameterLonger {diagnostic : Diagnostic} {line text : List Char}
    (edited : prefixParameter diagnostic line = some text) : line.length < text.length := by
  obtain ⟨name, renames⟩ := prefixParameterRenames edited
  exact Parameter.renameLength renames

theorem prefixParameterSafe : prefixParameter.Safe := by
  refine ⟨⟨List.length, prefixParameterLonger⟩, fun edited noLineFeed inside => ?_,
    fun edited noReturn => ?_, fun diagnostic => ?_⟩
  · obtain ⟨name, renames⟩ := prefixParameterRenames edited
    rcases Parameter.memRename renames inside with old | isUnderscore
    · exact noLineFeed old
    · cases isUnderscore
  · obtain ⟨name, renames⟩ := prefixParameterRenames edited
    rwa [Parameter.renameGetLast renames]
  · cases named : diagnostic.symbol <;> simp [prefixParameter, named, Parameter.renameEmpty]

theorem stepOfNone {edit : LineEdit} {line : List Char} {diagnostic : Diagnostic}
    (nothing : edit diagnostic line = none) : edit.step line diagnostic = line := by
  simp [step, nothing]

theorem stepOfSome {edit : LineEdit} {line text : List Char} {diagnostic : Diagnostic}
    (edited : edit diagnostic line = some text) : edit.step line diagnostic = text := by
  simp [step, edited]

theorem Safe.differs {edit : LineEdit} (safe : edit.Safe) {diagnostic : Diagnostic}
    {line text : List Char} (edited : edit diagnostic line = some text) : text ≠ line := by
  obtain ⟨rank, advances⟩ := safe.advances
  rintro rfl
  exact Nat.lt_irrefl _ (advances edited)

/-- What every edit of a line keeps, all edits together keep. -/
theorem stepsKeep {edit : LineEdit} (Kept : List Char → Prop)
    (keeps : ∀ {diagnostic line text}, edit diagnostic line = some text → Kept line → Kept text)
    {line : List Char} (start : Kept line) (diagnostics : List Diagnostic) :
    Kept (diagnostics.foldl edit.step line) := by
  induction diagnostics generalizing line with
  | nil => exact start
  | cons diagnostic diagnostics inductionHypothesis =>
    refine inductionHypothesis ?_
    cases result : edit diagnostic line with
    | none => rwa [stepOfNone result]
    | some text =>
      rw [stepOfSome result]
      exact keeps result start

/-- A line on which any diagnostic had an effect never ends as it was. -/
theorem changes_eq_nil_iff {edit : LineEdit} (safe : edit.Safe) (line : List Char)
    (diagnostics : List Diagnostic) :
    edit.changes line diagnostics = [] ↔ diagnostics.foldl edit.step line = line := by
  obtain ⟨rank, advances⟩ := safe.advances
  induction diagnostics generalizing line with
  | nil => simp [changes]
  | cons diagnostic diagnostics inductionHypothesis =>
    rw [changes, List.foldl_cons]
    split
    · next same => rw [inductionHypothesis, same]
    · next different =>
      refine ⟨fun nothing => by simp at nothing, fun back => ?_⟩
      cases result : edit diagnostic line with
      | none => exact absurd (stepOfNone result) different
      | some text =>
        have higher := advances result
        have tail : rank text ≤ rank (diagnostics.foldl edit.step text) :=
          stepsKeep (fun other => rank text ≤ rank other)
            (fun edited start => Nat.le_trans start (Nat.le_of_lt (advances edited)))
            (Nat.le_refl _) diagnostics
        rw [← stepOfSome result, back, stepOfSome result] at tail
        omega

/-- Any diagnostics of a line blank it if it is removable. -/
theorem blankSteps (line : List Char) (diagnostics : List Diagnostic) :
    diagnostics.foldl blankDeclaration.step line =
      if diagnostics ≠ [] ∧ Declaration.isRemovable line then [] else line := by
  induction diagnostics generalizing line with
  | nil => simp
  | cons diagnostic diagnostics inductionHypothesis =>
    rw [List.foldl_cons, inductionHypothesis]
    by_cases removable : Declaration.isRemovable line
    · simp [step, blankDeclaration, removable]
    · simp [step, blankDeclaration, removable]

/-- Only the first diagnostic of a removable line changes it. -/
theorem blankChanges (line : List Char) (diagnostics : List Diagnostic) :
    blankDeclaration.changes line diagnostics =
      if Declaration.isRemovable line then diagnostics.take 1 else [] := by
  have rest : ∀ line diagnostics, Declaration.isRemovable line = false →
      blankDeclaration.changes line diagnostics = [] := by
    intro line diagnostics stays
    rw [changes_eq_nil_iff blankDeclarationSafe, blankSteps]
    simp [stays]
  cases diagnostics with
  | nil => simp [changes]
  | cons diagnostic diagnostics =>
    by_cases removable : Declaration.isRemovable line
    · have edited : blankDeclaration diagnostic line = some [] := if_pos removable
      have different := blankDeclarationSafe.differs edited
      simp [changes, stepOfSome edited, different, removable, rest [] diagnostics rfl]
    · simp [removable, rest line _ (by simpa using removable)]

/-- One diagnostic changes its own line and no other. -/
theorem applyOneMapTexts (edit : LineEdit) (buffer : Buffer) (diagnostic : Diagnostic) :
    applyOne? edit buffer diagnostic =
      ((buffer.line? diagnostic.line).bind (edit diagnostic)).map fun text =>
        buffer.mapTexts fun number line => if number = diagnostic.line then text else line := by
  unfold applyOne?
  cases known : buffer.line? diagnostic.line with
  | none => rfl
  | some line =>
    cases result : edit diagnostic line with
    | none => simp [result]
    | some text => simp [result, Buffer.setLineMapTexts, known]

/-- Every line goes through the edits of its own diagnostics in their order. -/
theorem applyInOrderBuffer (edit : LineEdit) (buffer : Buffer) (diagnostics : List Diagnostic) :
    (applyInOrder edit buffer diagnostics).1 = buffer.mapTexts fun number line =>
      (diagnostics.filter fun diagnostic => diagnostic.line = number).foldl edit.step line := by
  induction diagnostics generalizing buffer with
  | nil => exact buffer.mapTextsId.symm
  | cons diagnostic diagnostics inductionHypothesis =>
    simp only [applyInOrder, applyOneMapTexts]
    cases result : (buffer.line? diagnostic.line).bind (edit diagnostic) with
    | none =>
      refine (inductionHypothesis buffer).trans (Buffer.mapTextsCongr fun number line known => ?_)
      by_cases own : diagnostic.line = number
      · have nothing : edit diagnostic line = none := by simpa [own, known] using result
        simp [own, stepOfNone nothing]
      · simp [own]
    | some text =>
      refine (inductionHypothesis _).trans ((Buffer.mapTextsMapTexts _ _ _).trans
        (Buffer.mapTextsCongr fun number line known => ?_))
      by_cases own : diagnostic.line = number
      · have edited : edit diagnostic line = some text := by simpa [own, known] using result
        simp [own, stepOfSome edited]
      · simp [own, Ne.symm own]

/-- On every line the diagnostics that led to an edit are those that changed it. -/
theorem applyInOrderFixed {edit : LineEdit} (safe : edit.Safe) (buffer : Buffer)
    (diagnostics : List Diagnostic) (number : Nat) :
    (applyInOrder edit buffer diagnostics).2.filter (fun diagnostic => diagnostic.line = number) =
      ((buffer.line? number).map fun line => edit.changes line
        (diagnostics.filter fun diagnostic => diagnostic.line = number)).getD [] := by
  induction diagnostics generalizing buffer with
  | nil => cases buffer.line? number <;> rfl
  | cons diagnostic diagnostics inductionHypothesis =>
    simp only [applyInOrder, applyOneMapTexts]
    cases result : (buffer.line? diagnostic.line).bind (edit diagnostic) with
    | none =>
      refine (inductionHypothesis buffer).trans ?_
      cases known : buffer.line? number with
      | none => rfl
      | some line =>
        by_cases own : diagnostic.line = number
        · have nothing : edit diagnostic line = none := by simpa [own, known] using result
          simp [own, changes, stepOfNone nothing]
        · simp [own]
    | some text =>
      have tail := inductionHypothesis
        (buffer.mapTexts fun number line => if number = diagnostic.line then text else line)
      simp only [Option.map_some, List.filter_cons]
      rw [tail, Buffer.lineOfMapTexts]
      by_cases own : diagnostic.line = number
      · cases known : buffer.line? number with
        | none => simp [own, known] at result
        | some line =>
          have edited : edit diagnostic line = some text := by simpa [own, known] using result
          simp [own, changes, stepOfSome edited, safe.differs edited]
      · cases buffer.line? number <;> simp [own, Ne.symm own]

/-- A buffer without lines answers nothing. -/
theorem applyInOrderNoLines (edit : LineEdit) (diagnostics : List Diagnostic) :
    applyInOrder edit ⟨[]⟩ diagnostics = (⟨[]⟩, []) := by
  induction diagnostics with
  | nil => rfl
  | cons diagnostic diagnostics inductionHypothesis =>
    have absent : Buffer.line? ⟨[]⟩ diagnostic.line = none := by
      cases diagnostic.line <;> rfl
    simp [applyInOrder, applyOne?, absent, inductionHypothesis]

theorem applyInOrderSublist (edit : LineEdit) (buffer : Buffer) (diagnostics : List Diagnostic) :
    (applyInOrder edit buffer diagnostics).2.Sublist diagnostics := by
  induction diagnostics generalizing buffer with
  | nil => exact .slnil
  | cons diagnostic diagnostics inductionHypothesis =>
    simp only [applyInOrder]
    split
    · exact (inductionHypothesis buffer).cons diagnostic
    · exact (inductionHypothesis _).cons_cons diagnostic

/-- Two buffers that differ only in empty lines, which no edit touches, answer the same
diagnostics. -/
theorem applyInOrderAgree {edit : LineEdit} (safe : edit.Safe) {first second : Buffer}
    (agree : ∀ number, first.line? number = second.line? number ∨
      first.line? number = none ∧ second.line? number = some []) (diagnostics : List Diagnostic) :
    (applyInOrder edit first diagnostics).2 = (applyInOrder edit second diagnostics).2 := by
  induction diagnostics generalizing first second with
  | nil => rfl
  | cons diagnostic diagnostics inductionHypothesis =>
    have sameResult : (first.line? diagnostic.line).bind (edit diagnostic) =
        (second.line? diagnostic.line).bind (edit diagnostic) := by
      rcases agree diagnostic.line with same | ⟨absent, empty⟩
      · rw [same]
      · simp [absent, empty, safe.emptyStays]
    simp only [applyInOrder, applyOneMapTexts, sameResult]
    cases result : (second.line? diagnostic.line).bind (edit diagnostic) with
    | none => exact inductionHypothesis agree
    | some text =>
      simp only [Option.map_some]
      refine congrArg (diagnostic :: ·) (inductionHypothesis fun number => ?_)
      rw [Buffer.lineOfMapTexts, Buffer.lineOfMapTexts]
      rcases agree number with same | ⟨absent, empty⟩
      · exact .inl (by rw [same])
      · have other : number ≠ diagnostic.line := by
          rintro rfl
          simp [empty, safe.emptyStays] at result
        exact .inr (by simp [absent, empty, other])

/-- The highest line goes first, which no line notices. -/
theorem applyBuffer (edit : LineEdit) (buffer : Buffer) (diagnostics : List Diagnostic) :
    (edit.apply buffer diagnostics).1 = buffer.mapTexts fun number line =>
      (diagnostics.filter fun diagnostic => diagnostic.line = number).foldl edit.step line := by
  rw [apply, applyInOrderBuffer]
  simp only [Diagnostic.descendingLine]

theorem applyEndings (edit : LineEdit) (buffer : Buffer) (diagnostics : List Diagnostic) :
    (edit.apply buffer diagnostics).1.lines.map Line.ending = buffer.lines.map Line.ending := by
  rw [applyBuffer]
  exact Buffer.mapTextsEndings _ buffer

theorem applyFixed {edit : LineEdit} (safe : edit.Safe) (buffer : Buffer)
    (diagnostics : List Diagnostic) (number : Nat) :
    (edit.apply buffer diagnostics).2.filter (fun diagnostic => diagnostic.line = number) =
      ((buffer.line? number).map fun line => edit.changes line
        (diagnostics.filter fun diagnostic => diagnostic.line = number)).getD [] := by
  rw [apply, applyInOrderFixed safe, Diagnostic.descendingLine]

/-- The diagnostics answered are some of the given ones. -/
theorem applySubperm (edit : LineEdit) (buffer : Buffer) (diagnostics : List Diagnostic) :
    (edit.apply buffer diagnostics).2.Subperm diagnostics :=
  (applyInOrderSublist edit buffer _).subperm.trans (Diagnostic.sortByPerm _ _).subperm

theorem applyRegular {edit : LineEdit} (safe : edit.Safe) {buffer : Buffer}
    (regular : buffer.Regular) (diagnostics : List Diagnostic) :
    (edit.apply buffer diagnostics).1.Regular := by
  rw [applyBuffer]
  refine regular.mapTexts (fun _ _ start => ?_) (fun _ _ start => ?_)
  · exact stepsKeep (fun line => '\n' ∉ line) safe.noLineFeed start _
  · exact stepsKeep (fun line => line.getLast? ≠ some '\r') safe.noReturn start _

theorem stepsEmpty {edit : LineEdit} (safe : edit.Safe) (diagnostics : List Diagnostic) :
    diagnostics.foldl edit.step [] = [] := by
  refine stepsKeep (fun line => line = []) ?_ rfl diagnostics
  rintro diagnostic line text edited rfl
  simp [safe.emptyStays] at edited

/-- A last line that leaves no trace makes no difference to the edits. -/
theorem applySettled {edit : LineEdit} (safe : edit.Safe) (buffer : Buffer)
    (diagnostics : List Diagnostic) :
    (edit.apply buffer.settled diagnostics).1.contents =
        (edit.apply buffer diagnostics).1.contents ∧
      (edit.apply buffer.settled diagnostics).2 = (edit.apply buffer diagnostics).2 := by
  constructor
  · rw [applyBuffer, applyBuffer]
    exact Buffer.contentsMapTextsSettled (fun _ => stepsEmpty safe _) buffer
  · exact applyInOrderAgree safe buffer.lineOfSettled _

/-- The text of a file stays exactly when no diagnostic led to an edit. -/
theorem applyFixed_eq_nil_iff {edit : LineEdit} (safe : edit.Safe) (text : List Char)
    (diagnostics : List Diagnostic) :
    (edit.apply (Buffer.ofText text) diagnostics).2 = [] ↔
      (edit.apply (Buffer.ofText text) diagnostics).1.contents = text := by
  constructor
  · intro nothing
    refine Eq.trans ?_ (Buffer.contentsOfText text)
    rw [applyBuffer]
    refine (congrArg Buffer.contents (Buffer.mapTextsCongr fun number line known => ?_)).trans
      (congrArg Buffer.contents (Buffer.mapTextsId _))
    have unchanged := applyFixed safe (Buffer.ofText text) diagnostics number
    simp only [nothing, List.filter_nil, known, Option.map_some, Option.getD_some] at unchanged
    exact (changes_eq_nil_iff safe line _).mp unchanged.symm
  · intro same
    -- The lines are read back from the text, and none of them got lost on the way.
    have readBack := Buffer.ofTextContents
      (applyRegular safe (Buffer.regularOfText text) diagnostics)
    rw [same] at readBack
    have size : (edit.apply (Buffer.ofText text) diagnostics).1.lines.length =
        (Buffer.ofText text).lines.length := by
      rw [applyBuffer]
      simp [Buffer.mapTexts]
    have whole := Buffer.settledOfSize (by rw [← readBack, size])
    rw [whole, applyBuffer] at readBack
    refine List.eq_nil_iff_forall_not_mem.mpr fun diagnostic isFixed => ?_
    have member : diagnostic ∈ (edit.apply (Buffer.ofText text) diagnostics).2.filter
        (fun other => other.line = diagnostic.line) := by simp [isFixed]
    rw [applyFixed safe] at member
    cases known : (Buffer.ofText text).line? diagnostic.line with
    | none => simp [known] at member
    | some line =>
      have lines := congrArg (fun buffer => buffer.line? diagnostic.line) readBack
      simp only [Buffer.lineOfMapTexts, known, Option.map_some, Option.some.injEq] at lines
      rw [known, Option.map_some, Option.getD_some,
        (changes_eq_nil_iff safe line _).mpr lines.symm] at member
      cases member

end LintRepair.LineEdit
