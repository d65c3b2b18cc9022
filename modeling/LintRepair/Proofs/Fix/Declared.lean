/-
This file shows that no form of `require` is left when the constants have become declarations, as
long as no module that is moved holds white space.
-/

import LintRepair.Proofs.Fix.Seam
import LintRepair.Proofs.Text.Absence

namespace LintRepair.RequireImport

open Text Unicode

theorem singleNone {before : Option Char} {text : List Char} :
    single before text = none ↔ ¬ Quoting SingleHead text := by
  rw [← singleReads, Option.not_isSome_iff_eq_none]

theorem destructuredNone {before : Option Char} {text : List Char} :
    destructured before text = none ↔ ¬ Bracing text := by
  rw [← destructuredReads, Option.not_isSome_iff_eq_none]

/-- A text begins with the keyword and white space, as both forms of `require` do. -/
def Begins (text : List Char) : Prop :=
  ∃ blank behind, isBlank blank ∧ text = "const".toList ++ blank :: behind

theorem Quoting.begins {text : List Char} (quoting : Quoting SingleHead text) : Begins text := by
  obtain ⟨_, mark, behind, ⟨blanks, binding, call, notEmpty, areBlank, -, -, -, rfl⟩, -, -, rfl⟩ :=
    quoting
  obtain ⟨blank, blanks, rfl⟩ := List.exists_cons_of_ne_nil notEmpty
  exact ⟨blank, blanks ++ (binding ++ (call ++ mark :: behind)), areBlank blank List.mem_cons_self,
    by simp⟩

theorem Bracing.begins {text : List Char} (bracing : Bracing text) : Begins text := by
  obtain ⟨blanks, names, behind, notEmpty, areBlank, -, -, -, rfl⟩ := bracing
  obtain ⟨blank, blanks, rfl⟩ := List.exists_cons_of_ne_nil notEmpty
  exact ⟨blank, blanks ++ '\x7b' :: (names ++ '\x7d' :: behind),
    areBlank blank List.mem_cons_self, by simp⟩

section

variable {middle literal source : List Char}

theorem notInLiteral (filled : middle ≠ []) (inside : middle <:+ literal)
    (noInitial : 'c' ∉ literal) (rest : List Char) : ¬ Begins (middle ++ rest) := by
  rintro ⟨blank, behind, -, whole⟩
  obtain ⟨first, middle, rfl⟩ := List.exists_cons_of_ne_nil filled
  obtain ⟨rfl, -⟩ := List.cons_eq_cons.mp whole
  exact noInitial (inside.subset List.mem_cons_self)

/-- The keyword would bring white space into the module. -/
theorem notInSource (noBlanks : Free isBlank source) (inside : middle <:+ source)
    (rest : List Char) : ¬ Begins (middle ++ '"' :: rest) := by
  rintro ⟨blank, behind, blankIsBlank, whole⟩
  have keyword : "const".toList ++ [blank] ++ behind = middle ++ '"' :: rest := by
    rw [whole]
    simp
  have notInside : blank ∉ middle := by
    intro isInside
    have notBlank := noBlanks blank (inside.subset isInside)
    rw [blankIsBlank] at notBlank
    cases notBlank
  rcases List.append_eq_append_iff.mp keyword with ⟨between, rfl, -⟩ | ⟨between, short, others⟩
  · exact notInside (by simp)
  · cases between with
    | nil => exact notInside (by rw [List.append_nil] at short; simp [← short])
    | cons mark between =>
      obtain ⟨rfl, -⟩ := List.cons_eq_cons.mp others
      have isInside : '"' ∈ "const".toList ++ [blank] := by
        rw [short]
        simp
      have noMark := constNoQuotes (List.forall_mem_singleton.mpr blankIsBlank) '"' isInside
      cases noMark

/-- Neither form begins behind the names of a declaration. -/
theorem notBehindNames (noBlanks : Free isBlank source) (filled : middle ≠ [])
    (inside : middle <:+ " from ".toList ++ quoted source) (rest : List Char) :
    ¬ Begins (middle ++ rest) := by
  have regrouped : " from ".toList ++ quoted source = " from \"".toList ++ (source ++ ['"']) := by
    simp [quoted]
  rw [regrouped] at inside
  rcases suffixOfAppend inside with ⟨start, startFilled, isStart, rfl⟩ | inside
  · rw [List.append_assoc]
    exact notInLiteral startFilled isStart (by decide) _
  · rcases suffixOfAppend inside with ⟨start, -, isStart, rfl⟩ | inside
    · rw [List.append_assoc]
      exact notInSource noBlanks isStart rest
    · exact notInLiteral filled inside (by decide) rest

theorem notBeforeFrom {Head : List Char → Prop} (calling : ∀ {head}, Head head → Calling head)
    (noQuotes : Free isQuote middle) (rest : List Char) :
    ¬ Quoting Head (middle ++ (" from ".toList ++ quoted source) ++ rest) := by
  intro quoting
  have regrouped : middle ++ (" from ".toList ++ quoted source) ++ rest =
      (middle ++ " from ".toList) ++ '"' :: (source ++ '"' :: rest) := by
    simp [quoted]
  rw [regrouped] at quoting
  have isHead := quoting.isHead calling (freeAppend.mpr ⟨noQuotes, by decide⟩) (by decide)
  exact notCallingFrom middle (calling isHead)

end

/-- No constant with one name comes about before a replacement. -/
theorem singleAcross {part replaced : List Char} (seam : Seam part replaced)
    (kept behind rest : List Char) (nothing : single none (kept ++ (part ++ behind)) = none) :
    single none (kept ++ (replaced ++ rest)) = none := by
  rw [singleNone] at nothing ⊢
  intro quoting
  exact nothing (quoting.acrossSeam SingleHead.calling seam behind)

/-- The declarations that stand in place of the constants with one name make no new one. -/
theorem singleGone {text : List Char}
    (noBlanks : ∀ require ∈ occurrences single text, Free isBlank require.source) :
    Absent single (replaceAll single singleDeclaration text) := by
  refine absentReplaced singleConsumes (fun _ _ => rfl) singleConsumes takesSingle
    (fun _ _ _ nothing => nothing) (fun part require form => singleAcross (singleSeam form)) ?_
    noBlanks
  intro part require form free behind _ middle filled inside rest
  rw [singleNone]
  intro quoting
  obtain ⟨blanks, call, -, -, -, wordCharacters, -, -⟩ := form
  have regrouped : singleDeclaration require = ("import ".toList ++ require.binding) ++
      (" from ".toList ++ quoted require.source) := List.append_assoc _ _ _
  rw [regrouped] at inside
  rcases suffixOfAppend inside with ⟨start, -, isStart, rfl⟩ | inside
  · have noQuotes : Free isQuote ("import ".toList ++ require.binding) :=
      freeAppend.mpr ⟨by decide, wordNoQuotes wordCharacters⟩
    exact notBeforeFrom SingleHead.calling (freeSuffix isStart noQuotes) rest quoting
  · exact notBehindNames free filled inside rest quoting.begins

theorem bracedFrom : " \x7d from ".toList = " \x7d".toList ++ " from ".toList := by
  decide

theorem namedDeclaration_eq (require : RequireImport) :
    namedDeclaration require = "import \x7b ".toList ++ (require.binding ++
      (" \x7d".toList ++ (" from ".toList ++ quoted require.source))) := by
  unfold namedDeclaration
  rw [bracedFrom]
  simp only [List.append_assoc]

/-- The declarations that stand in place of the constants with names in braces make no constant
with one name. -/
theorem singleStaysGone {text : List Char} (noSingle : Absent single text)
    (noBlanks : ∀ require ∈ occurrences destructured text, Free isBlank require.source) :
    Absent single (replaceAll destructured namedDeclaration text) := by
  have contextFree : ContextFree single := fun _ _ => rfl
  have noSuffix := (contextFree.absent_iff text).mp noSingle
  refine absentReplaced singleConsumes contextFree destructuredConsumes takesDestructured
    (fun _ behind inside _ => noSuffix behind inside)
    (fun part require form => singleAcross (namedSeam form)) ?_ noBlanks
  intro part require form free behind within middle filled inside rest
  rw [singleNone]
  intro quoting
  rw [namedDeclaration_eq] at inside
  rcases suffixOfAppend inside with ⟨start, startFilled, isStart, rfl⟩ | inside
  · rw [List.append_assoc] at quoting
    exact notInLiteral startFilled isStart (by decide) _ quoting.begins
  rcases suffixOfAppend inside with ⟨start, -, isStart, rfl⟩ | inside
  · -- Behind the names the old text went on with a call.
    obtain ⟨blanks, inner, back, call, -, -, -, backBlank, -, -, callForm, rfl⟩ := form
    rw [← List.append_assoc " \x7d".toList, ← bracedFrom, List.append_assoc] at quoting
    have before := quoting.acrossSeam SingleHead.calling (bracedSeam backBlank callForm) behind
    have further : start ++ (back ++ '\x7d' :: call ++ behind) <:+ text := by
      obtain ⟨front, whole⟩ := isStart
      apply List.IsSuffix.trans _ within
      exact ⟨"const".toList ++ blanks ++ '\x7b' :: (inner ++ front), by simp [← whole]⟩
    exact singleNone.mp (noSuffix _ further) before
  rcases suffixOfAppend inside with ⟨start, startFilled, isStart, rfl⟩ | inside
  · rw [List.append_assoc] at quoting
    exact notInLiteral startFilled isStart (by decide) _ quoting.begins
  · exact notBehindNames free filled inside rest quoting.begins

/-- What stands before the closing brace of a constant. -/
theorem noBraceBefore {blanks names : List Char}
    (areBlank : ∀ character ∈ blanks, isBlank character) (noBrace : Free (· == '\x7d') names) :
    Free (· == '\x7d') ("const".toList ++ (blanks ++ '\x7b' :: names)) := by
  have blanksNoBrace : Free (· == '\x7d') blanks :=
    plainWithout (by decide) (plainBlanks areBlank)
  exact freeAppend.mpr ⟨by decide, freeAppend.mpr ⟨blanksNoBrace,
    List.forall_mem_cons.mpr ⟨rfl, noBrace⟩⟩⟩

theorem Bracing.calls {front behind : List Char} (noBrace : Free (· == '\x7d') front)
    (bracing : Bracing (front ++ '\x7d' :: behind)) :
    Quoting CallHead behind ∧ ∀ other, Quoting CallHead other →
      Bracing (front ++ '\x7d' :: other) := by
  obtain ⟨blanks, names, after, notEmpty, areBlank, filled, namesNoBrace, quoting, whole⟩ := bracing
  have regrouped : front ++ '\x7d' :: behind =
      "const".toList ++ (blanks ++ '\x7b' :: names) ++ '\x7d' :: after := by
    rw [whole]
    simp
  obtain ⟨rfl, -, rfl⟩ := sameFirstMarked noBrace (noBraceBefore areBlank namesNoBrace) rfl rfl
    regrouped
  refine ⟨quoting, fun other isCall => ?_⟩
  exact ⟨blanks, names, other, notEmpty, areBlank, filled, namesNoBrace, isCall, by simp⟩

/-- A declaration goes on with a word behind the brace. -/
theorem notBracing {front : List Char} (noBrace : Free (· == '\x7d') front) (rest : List Char) :
    ¬ Bracing (front ++ '\x7d' :: (" from ".toList ++ rest)) := by
  intro bracing
  have isCall := callReads.mpr (bracing.calls noBrace).1
  have noCall : call? (" from ".toList ++ rest) = none := rfl
  rw [noCall] at isCall
  cases isCall

/-- A declaration up to its brace, and what follows. -/
theorem bracedDeclaration (require : RequireImport) : namedDeclaration require =
    ("import \x7b ".toList ++ (require.binding ++ [' '])) ++ ['\x7d'] ++
      (" from ".toList ++ quoted require.source) := by
  have brace : " \x7d".toList = [' '] ++ ['\x7d'] := by decide
  rw [namedDeclaration_eq, brace]
  simp only [List.append_assoc]

theorem noBraceInNames {part : List Char} {require : RequireImport}
    (form : DestructuredForm part require) :
    Free (· == '\x7d') ("import \x7b ".toList ++ (require.binding ++ [' '])) := by
  obtain ⟨-, -, -, -, -, -, -, -, -, noBrace, -, -⟩ := form
  exact freeAppend.mpr ⟨by decide, freeAppend.mpr
    ⟨fun character inside => beq_false_of_ne (noBrace character inside), by decide⟩⟩

theorem Bracing.acrossSeam {part kept rest : List Char} {require : RequireImport}
    (form : DestructuredForm part require) (behind : List Char)
    (bracing : Bracing (kept ++ (namedDeclaration require ++ rest))) :
    Bracing (kept ++ (part ++ behind)) := by
  rcases freeOrMarked (· == '\x7d') kept with keptFree | ⟨front, mark, others, noBrace, isBrace, rfl⟩
  · have regrouped : kept ++ (namedDeclaration require ++ rest) =
        kept ++ ("import \x7b ".toList ++ (require.binding ++ [' '])) ++
          '\x7d' :: (" from ".toList ++ (quoted require.source ++ rest)) := by
      rw [bracedDeclaration]
      simp only [List.append_assoc, List.cons_append, List.nil_append]
    rw [regrouped] at bracing
    exact absurd bracing (notBracing (freeAppend.mpr ⟨keptFree, noBraceInNames form⟩) _)
  · obtain rfl := beq_iff_eq.mp isBrace
    rw [List.append_assoc] at bracing ⊢
    obtain ⟨quoting, replaced⟩ := bracing.calls noBrace
    exact replaced _ (quoting.acrossSeam CallHead.calling (namedSeam form) behind)

/-- The declarations that stand in place of the constants with names in braces make no new one. -/
theorem destructuredGone {text : List Char}
    (noBlanks : ∀ require ∈ occurrences destructured text, Free isBlank require.source) :
    Absent destructured (replaceAll destructured namedDeclaration text) := by
  refine absentReplaced destructuredConsumes (fun _ _ => rfl) destructuredConsumes
    takesDestructured (fun _ _ _ nothing => nothing) ?_ ?_ noBlanks
  · intro part require form kept behind rest nothing
    rw [destructuredNone] at nothing ⊢
    exact fun bracing => nothing (bracing.acrossSeam form behind)
  · intro part require form free behind _ middle filled inside rest
    rw [destructuredNone]
    intro bracing
    rw [bracedDeclaration] at inside
    rcases suffixOfAppend inside with ⟨start, startFilled, isStart, rfl⟩ | inside
    · rcases List.suffix_concat_iff.mp isStart with empty | ⟨names, rfl, isNames⟩
      · exact startFilled empty
      · rw [List.append_assoc, List.append_assoc] at bracing
        exact notBracing (freeSuffix isNames (noBraceInNames form)) _ bracing
    · exact notBehindNames free filled inside rest bracing.begins

end LintRepair.RequireImport
