/-
This file shows that settings are read back from every way to write them, beside any other tables,
and that a section with a further key is not read at all.
-/

import LintRepair.Proofs.Settings.Section
import LintRepair.Proofs.Toml.Document
import Mathlib.Data.List.Nodup

namespace LintRepair.Settings

open Toml

variable {settings : Settings} {fields : List Field} {text : List Char}

section Section

/-- The value of a field in a document. -/
def value (settings : Settings) : Field → Value
  | .sourceDirectory => .text settings.sourceDirectory
  | .lintCommand => .array (settings.lintCommand.map .text)
  | .unusedVariableRule => .text settings.unusedVariableRule
  | .requireImportRule => .text settings.requireImportRule

/-- The table that the lines of the fields define. -/
def entries (settings : Settings) (fields : List Field) : Entries :=
  fields.map fun field => (field.key, settings.value field)

theorem fieldMeans {field : Field} (written : settings.FieldText field text) :
    Means (settings.value field) text := by
  cases field with
  | lintCommand => exact arrayMeans written
  | sourceDirectory | unusedVariableRule | requireImportRule => exact stringMeans written

theorem sectionYields (written : SectionText settings fields text) :
    Yields text (.table [] sectionName ::
      (settings.entries fields).map fun member => .pair ⟨[], member.1, member.2⟩) := by
  obtain ⟨blank, header, lines, isBlank, isHeader, areLines, rfl⟩ := written
  have each := linesYield areLines fun field line isLine =>
    pairYields isLine fun value isValue => fieldMeans isValue
  rw [entries, List.map_map]
  exact (blankYields isBlank).append ((headerYields isHeader).append each)

theorem keyInjective : Function.Injective Field.key := by
  intro first second same
  cases first <;> cases second <;> first | rfl | exact absurd same (by decide)

theorem entryFound {field : Field} (inside : field ∈ fields) :
    (settings.entries fields).lookup field.key = some (settings.value field) := by
  induction fields with
  | nil => cases inside
  | cons first fields inductionHypothesis =>
    by_cases isFirst : field = first
    · subst isFirst
      simp [entries]
    · have other : (field.key == first.key) = false :=
        beq_eq_false_iff_ne.mpr fun same => isFirst (keyInjective same)
      have behind := inductionHypothesis ((List.mem_cons.mp inside).resolve_left isFirst)
      rw [entries] at behind ⊢
      rw [List.map_cons, List.lookup_cons, other]
      exact behind

/-- The statements of the section build the table of the fields and nothing else. -/
theorem sectionBuilt (once : fields.Nodup) :
    Document.ofStatements (.table [] sectionName ::
        (settings.entries fields).map fun member => .pair ⟨[], member.1, member.2⟩) =
      some (Document.alone sectionName (settings.entries fields)) := by
  have keys : ((settings.entries fields).map Prod.fst).Nodup := by
    have names : (settings.entries fields).map Prod.fst = fields.map Field.key := by
      simp [entries]
    rw [names]
    exact once.map keyInjective
  exact Document.pairsAdded (settings.entries fields) keys

end Section

section Reading

/-- Settings with the values of some fields, and otherwise as they were. -/
def merged (settings : Settings) (fields : List Field) (earlier : Settings) : Settings where
  sourceDirectory :=
    if .sourceDirectory ∈ fields then settings.sourceDirectory else earlier.sourceDirectory
  lintCommand := if .lintCommand ∈ fields then settings.lintCommand else earlier.lintCommand
  unusedVariableRule :=
    if .unusedVariableRule ∈ fields then settings.unusedVariableRule
    else earlier.unusedVariableRule
  requireImportRule :=
    if .requireImportRule ∈ fields then settings.requireImportRule else earlier.requireImportRule

theorem textsRead (items : List String) : texts? (.array (items.map .text)) = some items := by
  rw [texts?]
  induction items with
  | nil => rfl
  | cons item items inductionHypothesis =>
    simp [List.mapM_cons, inductionHypothesis, text?]

theorem entryRead (field : Field) (earlier : Settings) :
    withEntry earlier (field.key, settings.value field) =
      some (settings.merged [field] earlier) := by
  cases field with
  | lintCommand => simp [Field.key, value, withEntry, textsRead, merged]
  | sourceDirectory | unusedVariableRule | requireImportRule => rfl

theorem entriesRead (earlier : Settings) :
    (settings.entries fields).foldlM withEntry earlier = some (settings.merged fields earlier) := by
  induction fields generalizing earlier with
  | nil => rfl
  | cons field fields inductionHypothesis =>
    rw [entries] at inductionHypothesis ⊢
    rw [List.map_cons, List.foldlM_cons, entryRead]
    refine (inductionHypothesis _).trans (congrArg some ?_)
    simp only [merged, List.mem_cons]
    congr 1 <;> grind

theorem commandKept : (settings.merged fields defaults).withCommand = settings.kept fields := by
  by_cases written : Field.lintCommand ∈ fields
  · by_cases empty : settings.lintCommand = []
    · simp [withCommand, merged, kept, written, empty]
    · simp [withCommand, merged, kept, written, empty]
  · simp [withCommand, merged, kept, written]

theorem tableRead (origin : Origin) :
    (ofSection? (.table origin (settings.entries fields))).map withCommand =
      some (settings.kept fields) := by
  rw [ofSection?, entriesRead, Option.map_some, commandKept]

end Reading

section Refusal

theorem unknownEntry {name : String} (unknown : ∀ field : Field, field.key ≠ name)
    (earlier : Settings) (value : Value) : withEntry earlier (name, value) = none := by
  unfold withEntry
  split
  · next same => exact absurd (Prod.mk.inj same).1.symm (unknown .sourceDirectory)
  · next same => exact absurd (Prod.mk.inj same).1.symm (unknown .lintCommand)
  · next same => exact absurd (Prod.mk.inj same).1.symm (unknown .unusedVariableRule)
  · next same => exact absurd (Prod.mk.inj same).1.symm (unknown .requireImportRule)
  · rfl

/-- No setting is a table. -/
theorem nestedEntry {value : Value} (holdsKeys : value.HoldsKeys) (earlier : Settings)
    (name : String) : withEntry earlier (name, value) = none := by
  have noText : text? value = none := by
    cases value <;> first | rfl | cases holdsKeys
  have noTexts : texts? value = none := by
    cases value <;> first | rfl | cases holdsKeys
  unfold withEntry
  split
  · next same => rw [← (Prod.mk.inj same).2, noText]; rfl
  · next same => rw [← (Prod.mk.inj same).2, noTexts]; rfl
  · next same => rw [← (Prod.mk.inj same).2, noText]; rfl
  · next same => rw [← (Prod.mk.inj same).2, noText]; rfl
  · rfl

/-- A section is not read when one of its entries is refused. -/
theorem entriesRefused {members : Entries} {name : String} {value : Value}
    (found : members.lookup name = some value)
    (refused : ∀ earlier, withEntry earlier (name, value) = none) (earlier : Settings) :
    members.foldlM withEntry earlier = none := by
  induction members generalizing earlier with
  | nil => cases found
  | cons member members inductionHypothesis =>
    obtain ⟨first, content⟩ := member
    rw [List.foldlM_cons]
    by_cases isFirst : name = first
    · subst isFirst
      obtain rfl : content = value := by simpa using found
      rw [refused]
      rfl
    · have other : (name == first) = false := beq_eq_false_iff_ne.mpr isFirst
      rw [List.lookup_cons, other] at found
      cases read : withEntry earlier (first, content) with
      | none => rfl
      | some next => exact inductionHypothesis found next

end Refusal

section Documents

/-- The last line of the section needs no line feed. -/
theorem readsUnended {unended : List Char}
    (written : SectionText settings fields (unended ++ ['\n'])) (once : fields.Nodup)
    (noReturn : unended.getLast? ≠ some '\r') :
    ofText? unended = some (settings.kept fields) := by
  have read := (sectionYields written).readsUnended (List.cons_ne_nil _ _) noReturn
  rw [sectionBuilt once] at read
  rw [ofText?, read]
  exact tableRead .header

variable (written : SectionText settings fields text) (once : fields.Nodup)

include written once

/-- What stands behind the section is read with the section's table in the document. -/
theorem readsBehind (rest : List Char) : ∃ further, rest.length < further ∧
    Toml.read? (text ++ rest) = (statements? further rest).bind fun others =>
      (others.foldlM Document.add
        (Document.alone sectionName (settings.entries fields))).map Document.root := by
  obtain ⟨further, enough, reads⟩ := (sectionYields written).readsOn (List.cons_ne_nil _ _) rest
  refine ⟨further, enough, reads.trans (congrArg _ (funext fun others => ?_))⟩
  have built := @sectionBuilt settings fields once
  rw [Document.ofStatements] at built ⊢
  rw [List.foldlM_append, built]
  rfl

/-- The section alone stands for the settings with the fields that are kept. -/
theorem readsSection : ofText? text = some (settings.kept fields) := by
  obtain ⟨further, enough, reads⟩ := readsBehind written once []
  obtain ⟨further, rfl⟩ := Nat.exists_eq_add_one_of_ne_zero (Nat.ne_zero_of_lt enough)
  rw [List.append_nil] at reads
  rw [ofText?, reads]
  exact tableRead .header

/-- Tables of other names behind the section change nothing. A header that names the section again
makes it unreadable. -/
theorem readsBeside {more : List Char} {root : Entries}
    (isDocument : Toml.read? ('[' :: more) = some root) :
    ofText? (text ++ '[' :: more) =
      if (root.lookup sectionName).isNone then some (settings.kept fields) else none := by
  obtain ⟨further, enough, reads⟩ := readsBehind written once ('[' :: more)
  obtain ⟨statements, document, read, built, rfl⟩ := documentRead isDocument
  obtain ⟨extra, rfl⟩ := Nat.exists_eq_add_of_le enough
  have readOn := roundsAdded read extra
  obtain ⟨statement, others, behind, opened, rfl⟩ :=
    firstStatement spaceNil (.inr (by decide)) read
  obtain ⟨path, key, isHeader⟩ := bracketOpens opened
  have beside := @Document.runBeside _ _ _ sectionName _ _ isHeader built (settings.entries fields)
  rw [readOn, Option.bind_some] at reads
  rw [ofText?, reads]
  by_cases absent : document.root.lookup sectionName = none
  · rw [beside.apart absent, absent]
    exact tableRead .header
  · rw [if_neg (by simpa using absent)]
    cases combined : (statement :: others).foldlM Document.add
        (Document.alone sectionName (settings.entries fields)) with
    | none => rfl
    | some result =>
      obtain ⟨origin, children, key, value, found, inside, holds⟩ :=
        beside.nested absent result combined
      have refused := entriesRefused inside (fun earlier => nestedEntry holds earlier key) defaults
      simp [found, ofSection?, refused]

/-- A further key in the section makes it unreadable, wherever it stands and whatever follows. -/
theorem refusesFurther {name : String} {more : List Char} (ahead : KeyAhead sectionName name more)
    (isFurther : ∀ field : Field, field.key = name → field ∈ fields) :
    ofText? (text ++ more) = none := by
  obtain ⟨further, -, reads⟩ := readsBehind written once more
  by_contra isRead
  obtain ⟨result, settingsRead⟩ := Option.ne_none_iff_exists'.mp isRead
  rw [ofText?, reads] at settingsRead
  obtain ⟨root, rootRead, sectionRead⟩ := Option.bind_eq_some_iff.mp settingsRead
  obtain ⟨statements, read, built⟩ := Option.bind_eq_some_iff.mp rootRead
  obtain ⟨document, run, rfl⟩ := Option.map_eq_some_iff.mp built
  obtain ⟨statement, others, rfl, concerns⟩ := ahead.concerns read
  obtain ⟨holdsKeys, origin, children, value, found, inside⟩ := Document.concernedRun concerns run
  by_cases known : ∃ field : Field, field.key = name
  · obtain ⟨field, rfl⟩ := known
    have holds := holdsKeys _ (entryFound (isFurther field rfl))
    cases field <;> exact holds
  · have unknown : ∀ field : Field, field.key ≠ name := fun field same => known ⟨field, same⟩
    have refused :=
      entriesRefused inside (fun earlier => unknownEntry unknown earlier value) defaults
    simp [found, ofSection?, refused] at sectionRead

end Documents

/-- Reading undoes writing, for any of the fields in any order and for every way to write them: the
fields that are written have their values and the others their defaults. The last line needs no line
feed, and tables may follow unless they belong to the section. A section with a further key, or with
a key for the second time, is refused wherever that key stands in it. -/
theorem settingsReadBack (settings : Settings) (fields : List Field) (once : fields.Nodup) :
    (∃ text, SectionText settings fields text) ∧
      ∀ text, SectionText settings fields text →
        ofText? text = some (settings.kept fields) ∧
        (∀ unended, text = unended ++ ['\n'] → unended.getLast? ≠ some '\r' →
          ofText? unended = some (settings.kept fields)) ∧
        (∀ more root, Toml.read? ('[' :: more) = some root →
          ofText? (text ++ '[' :: more) =
            if (root.lookup sectionName).isNone then some (settings.kept fields) else none) ∧
        ∀ name more, KeyAhead sectionName name more →
          (∀ field : Field, field.key = name → field ∈ fields) → ofText? (text ++ more) = none := by
  refine ⟨sectionWritten settings fields, fun text written => ?_⟩
  refine ⟨readsSection written once, ?unended, ?beside, ?further⟩
  case unended =>
    rintro unended rfl noReturn
    exact readsUnended written once noReturn
  case beside =>
    intro more root isDocument
    exact readsBeside written once isDocument
  case further =>
    intro name more ahead isFurther
    exact refusesFurther written once ahead isFurther

theorem quotedDirectoryReadBack :
    let text := "[lintpatch]\nlint_command=[\"oxlint\"]\nsource_dir=\"a\\\"b\"\n".toList
    let result : Settings := { sourceDirectory := "a\"b", lintCommand := ["oxlint"] }
    ofText? text = some result ∧ ofText? (text ++ "[tool]\n".toList) = some result ∧
      ofText? (text ++ "more = 1\n".toList) = none := by
  intro text result
  have word : StringText "oxlint" "\"oxlint\"".toList :=
    ⟨"oxlint".toList, plainEscaped (by decide), rfl⟩
  have command : ArrayText ["oxlint"] "[\"oxlint\"]".toList :=
    ⟨"\"oxlint\"".toList, .last gapNil word gapNil, rfl⟩
  have directory : StringText "a\"b" "\"a\\\"b\"".toList :=
    ⟨"a\\\"b".toList, .cons (.plain (by decide)) (.cons
      (.letter (show ('"', '"') ∈ letterEscapes by decide)) (.cons (.plain (by decide)) .nil)), rfl⟩
  have written : SectionText result [.lintCommand, .sourceDirectory] text := by
    refine ⟨[], _, _, .none, headerWritten sectionIsBare,
      .next .none (pairWritten Field.lintCommand.isBare command)
        (.next .none (pairWritten Field.sourceDirectory.isBare directory) (.none .none)), ?_⟩
    decide +kernel
  have stops : (" = 1\n".toList).head?.any isBareKeyCharacter = false := by decide
  have isKey : KeyText "more" "more".toList := .bare (by decide) (by decide)
  have ahead : KeyAhead sectionName "more" "more = 1\n".toList := .pair spaceNil isKey stops
  have unknown : ∀ field : Field, field.key = "more" →
      field ∈ [Field.lintCommand, .sourceDirectory] := by
    intro field isMore
    cases field <;> exact absurd isMore (by decide)
  have isKept : result.kept [.lintCommand, .sourceDirectory] = result := by decide
  have readBack :=
    (settingsReadBack result [.lintCommand, .sourceDirectory] (by decide)).2 text written
  rw [isKept] at readBack
  obtain ⟨reads, -, beside, refuses⟩ := readBack
  exact ⟨reads, beside _ [("tool", .table .header [])] rfl, refuses "more" _ ahead unknown⟩

-- An array without words stands for the default command, and the section may not be written twice.
example : ofText? "[lintpatch]\nlint_command = [ # none\n ]".toList = some defaults ∧
    ofText? "[lintpatch]\n[lintpatch]\n".toList = none := by
  decide +kernel

end LintRepair.Settings
