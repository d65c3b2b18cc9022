/-
This file follows the statements of a document: what they add, and what they leave alone.
-/

import LintRepair.Proofs.Toml.Table
import LintRepair.Proofs.Toml.Yield

namespace LintRepair.Toml

section Rounds

/-- No statement begins with a byte order mark. -/
theorem markYieldsNothing (rounds : Nat) (text : List Char) :
    statements? rounds ('\uFEFF' :: text) = none := by
  cases rounds with
  | zero => rfl
  | succ rounds =>
    have notSpace : skipInlineSpace ('\uFEFF' :: text) = '\uFEFF' :: text := rfl
    have noKey : keyPart? ('\uFEFF' :: text) = none := rfl
    have noStatement : statement? ('\uFEFF' :: text) = none := by
      rw [pairAhead (by decide), pair?, nestingRoom, key?, notSpace, noKey]
      rfl
    rw [statements?, notSpace]
    simp [noStatement]

variable {text : List Char} {statements : List Statement}

theorem Yields.begins (yields : Yields text statements) (notEmpty : statements ≠ []) :
    ∃ first others, text = first :: others ∧ first ≠ '\uFEFF' := by
  cases text with
  | nil => exact absurd yields.nothing notEmpty
  | cons first others =>
    refine ⟨first, others, rfl, ?_⟩
    rintro rfl
    obtain ⟨rounds, -, reads, -⟩ := yields
    have read := reads 1 []
    rw [List.append_nil, markYieldsNothing] at read
    cases read

theorem withoutMark {first : Char} (notMark : first ≠ '\uFEFF') (text : List Char) :
    withoutByteOrderMark (first :: text) = first :: text := by
  rw [withoutByteOrderMark]
  rintro others marked
  exact notMark (List.cons_eq_cons.mp marked).1

/-- A document goes on behind a text of whole lines, with rounds enough for what follows. -/
theorem Yields.readsOn (yields : Yields text statements) (notEmpty : statements ≠ [])
    (rest : List Char) : ∃ further, rest.length < further ∧
      read? (text ++ rest) = (statements? further rest).bind fun others =>
        (Document.ofStatements (statements ++ others)).map Document.root := by
  have noMark : withoutByteOrderMark (text ++ rest) = text ++ rest := by
    obtain ⟨first, others, rfl, notMark⟩ := yields.begins notEmpty
    exact withoutMark notMark (others ++ rest)
  obtain ⟨rounds, enough, reads, -⟩ := yields
  obtain ⟨further, whole⟩ : ∃ further, (text ++ rest).length + 1 = further + rounds :=
    ⟨(text ++ rest).length + 1 - rounds, by rw [List.length_append]; omega⟩
  refine ⟨further, by rw [List.length_append] at whole; omega, ?_⟩
  rw [read?]
  simp only [noMark, whole, reads]
  cases read : statements? further rest with
  | none => rfl
  | some others =>
    cases built : Document.ofStatements (statements ++ others) <;> simp [built]

/-- The last line of a document needs no line feed. -/
theorem Yields.readsUnended {unended : List Char} (yields : Yields (unended ++ ['\n']) statements)
    (notEmpty : statements ≠ []) (noReturn : unended.getLast? ≠ some '\r') :
    read? unended = (Document.ofStatements statements).map Document.root := by
  have noMark : withoutByteOrderMark unended = unended := by
    obtain ⟨first, others, whole, notMark⟩ := yields.begins notEmpty
    cases unended with
    | nil => rfl
    | cons character unended =>
      obtain ⟨rfl, -⟩ := List.cons_eq_cons.mp whole
      exact withoutMark notMark unended
  obtain ⟨rounds, -, -, readsLast⟩ := yields
  have read := readsLast unended rfl noReturn
  rw [read?, noMark]
  cases built : Document.ofStatements statements <;> simp [read, built]

/-- A text that begins with a bracket is a document by its statements. -/
theorem documentRead {more : List Char} {root : Entries} (read : read? ('[' :: more) = some root) :
    ∃ statements document, statements? (('[' :: more).length + 1) ('[' :: more) = some statements ∧
      Document.ofStatements statements = some document ∧ document.root = root := by
  rw [read?] at read
  obtain ⟨statements, read, built⟩ := Option.bind_eq_some_iff.mp read
  obtain ⟨document, built, whole⟩ := Option.bind_eq_some_iff.mp built
  exact ⟨statements, document, read, built, Option.some.inj whole⟩

end Rounds

namespace Document

variable {document after : Document} {statement : Statement} {statements : List Statement}

section Headers

variable {path : List String} {key : String}

/-- A header opens a table or an element of an array, where the next pairs then belong. -/
theorem headerOpens (isHeader : statement.header? = some (path, key)) :
    ∃ opener, Entries.Opens opener ∧ ∀ document : Document, document.add statement =
      (Entries.changeAt (opener key) path document.root).map fun root => ⟨root, path ++ [key]⟩ := by
  cases statement with
  | pair => cases isHeader
  | table =>
    cases isHeader
    refine ⟨_, Entries.openTableOpens, fun document => ?_⟩
    cases changed : Entries.changeAt (Entries.openTable key) path document.root <;>
      simp [add, changed]
  | element =>
    cases isHeader
    refine ⟨_, Entries.openElementOpens, fun document => ?_⟩
    cases changed : Entries.changeAt (Entries.openElement key) path document.root <;>
      simp [add, changed]

end Headers

theorem pairAdds {pair : Pair} (added : document.add (.pair pair) = some after) :
    ∃ root, Entries.changeAt (Entries.defineDotted pair.path pair.key pair.value) document.current
      document.root = some root ∧ after = { document with root := root } := by
  obtain ⟨root, changed, whole⟩ := Option.bind_eq_some_iff.mp added
  cases whole
  exact ⟨root, changed, rfl⟩

/-- A statement is a pair or has a header's effect. -/
theorem statementCases (statement : Statement) :
    (∃ pair, statement = .pair pair) ∨ ∃ path key, statement.header? = some (path, key) := by
  cases statement with
  | pair pair => exact .inl ⟨pair, rfl⟩
  | table path key | element path key => exact .inr ⟨path, key, rfl⟩

section Extension

theorem addExtends (added : document.add statement = some after) :
    document.root.Extends after.root := by
  obtain ⟨pair, rfl⟩ | ⟨path, key, isHeader⟩ := statementCases statement
  · obtain ⟨root, changed, rfl⟩ := pairAdds added
    refine Entries.changeExtends (fun _ _ defined => ?_) changed
    obtain ⟨own, puts⟩ := Entries.dottedPuts defined
    exact puts.extends
  · obtain ⟨opener, opens, adds⟩ := headerOpens isHeader
    rw [adds] at added
    obtain ⟨root, changed, rfl⟩ := Option.map_eq_some_iff.mp added
    obtain ⟨own, puts, -⟩ := opens.putsAt changed
    exact puts.extends

theorem runExtends (run : statements.foldlM add document = some after) :
    document.root.Extends after.root := by
  induction statements generalizing document with
  | nil =>
    cases run
    exact .refl _
  | cons statement statements inductionHypothesis =>
    rw [List.foldlM_cons] at run
    obtain ⟨between, added, onwards⟩ := Option.bind_eq_some_iff.mp run
    exact (addExtends added).trans (inductionHypothesis onwards)

/-- A key within a table stays in it. -/
theorem runKeeps (run : statements.foldlM add document = some after) {table key : String}
    {origin : Origin} {children : Entries} {value : Value}
    (found : document.root.lookup table = some (.table origin children))
    (inside : children.lookup key = some value) :
    ∃ origin more later, after.root.lookup table = some (.table origin more) ∧
      more.lookup key = some later ∧ (value.HoldsKeys → later.HoldsKeys) := by
  obtain ⟨tableValue, stays, isExtended⟩ := runExtends run table _ found
  obtain ⟨origin, more, rfl, kept⟩ := isExtended.table _ _ rfl
  obtain ⟨later, remains, holds⟩ := kept key value inside
  exact ⟨origin, more, later, stays, remains, holds⟩

end Extension

section Beside

variable {table : String} {entries : Entries} {between : Document}

/-- The same document with a table before all its entries. -/
def behind (table : String) (entries : Entries) (document : Document) : Document :=
  { document with root := (table, .table .header entries) :: document.root }

/-- A key of the table holds keys itself. -/
def Nested (table : String) (document : Document) : Prop :=
  ∃ origin children key value, document.root.lookup table = some (.table origin children) ∧
    children.lookup key = some value ∧ value.HoldsKeys

/-- What the statements of a document come to where a table has been written before them: nothing
changes when they do not name that table, and otherwise they fail or nest keys in it. -/
structure Beside (table : String) (entries : Entries) (document : Document)
    (combined : Option Document) : Prop where
  apart : document.root.lookup table = none → combined = some (document.behind table entries)
  nested : document.root.lookup table ≠ none → ∀ result, combined = some result →
    result.Nested table

/-- Pairs belong to a table that the document holds. -/
def Placed (document : Document) : Prop :=
  ∃ part path, document.current = part :: path ∧ (document.root.lookup part).isSome

theorem presentApart {members : Entries} {part : String} (present : (members.lookup part).isSome)
    (absent : members.lookup table = none) : part ≠ table := by
  rintro rfl
  rw [absent] at present
  cases present

theorem headerPlaced {path : List String} {key : String}
    (isHeader : statement.header? = some (path, key))
    (added : document.add statement = some after) : after.Placed := by
  obtain ⟨opener, opens, adds⟩ := headerOpens isHeader
  rw [adds] at added
  obtain ⟨root, changed, rfl⟩ := Option.map_eq_some_iff.mp added
  obtain ⟨own, puts, -⟩ := opens.putsAt changed
  have present := Option.isSome_iff_exists.mpr ⟨own, puts.own⟩
  cases path with
  | nil => exact ⟨key, [], rfl, present⟩
  | cons part path => exact ⟨part, path ++ [key], rfl, present⟩

/-- A header does not depend on the table to which pairs belonged before it. -/
theorem headerBeside {path : List String} {key : String}
    (isHeader : statement.header? = some (path, key))
    (added : document.add statement = some after) (missing : document.root.lookup table = none)
    (entries : Entries) (current : List String) :
    Beside table entries after
      (Document.add ⟨(table, .table .header entries) :: document.root, current⟩ statement) := by
  obtain ⟨opener, opens, adds⟩ := headerOpens isHeader
  rw [adds] at added
  obtain ⟨root, changed, rfl⟩ := Option.map_eq_some_iff.mp added
  obtain ⟨own, puts, -⟩ := opens.putsAt changed
  refine ⟨fun absent => ?_, fun named result combined => ?_⟩
  · have present := Option.isSome_iff_exists.mpr ⟨own, puts.own⟩
    rw [adds, opens.behindAt (presentApart present absent), changed]
    rfl
  · have isTable : path.headD key = table := by
      by_contra other
      rw [puts.found, if_neg (Ne.symm other)] at named
      exact named missing
    rw [adds] at combined
    obtain ⟨root, changed, rfl⟩ := Option.map_eq_some_iff.mp combined
    -- The header either is the one of the table itself or of a table below it.
    cases path with
    | nil =>
      obtain rfl : key = table := isTable
      rw [Entries.changeAt, opens.once List.lookup_cons_self] at changed
      cases changed
    | cons part inner =>
      obtain rfl : part = table := isTable
      rw [Entries.changeWithin] at changed
      obtain ⟨more, opened, rfl⟩ := Option.map_eq_some_iff.mp changed
      obtain ⟨own, puts, holds⟩ := opens.putsAt opened
      exact ⟨.header, more, _, own, by simp [Entries.lookupReplaced], puts.own, holds⟩

theorem pairBeside {pair : Pair} (placed : document.Placed)
    (added : document.add (.pair pair) = some after) (missing : document.root.lookup table = none)
    (entries : Entries) :
    Beside table entries after ((document.behind table entries).add (.pair pair)) ∧
      after.Placed := by
  obtain ⟨part, path, isCurrent, present⟩ := placed
  have apart := presentApart present missing
  have stays := (addExtends added).present present
  obtain ⟨root, changed, rfl⟩ := pairAdds added
  rw [isCurrent] at changed
  obtain ⟨own, puts, -⟩ := Entries.changePuts (fun _ _ defined =>
    (Entries.dottedPuts defined).elim fun _ puts => puts.extends) changed
  refine ⟨⟨fun _ => ?_, fun named => ?_⟩, part, path, isCurrent, stays⟩
  · simp [add, behind, isCurrent, Entries.changeBehind apart, changed]
  · rw [puts.found, if_neg (Ne.symm apart)] at named
    exact absurd missing named

theorem Beside.run {next : Option Document} (beside : Beside table entries between next)
    (placed : between.Placed) (onwards : statements.foldlM add between = some after) :
    Beside table entries after (next.bind fun document => statements.foldlM add document) := by
  induction statements generalizing between next with
  | nil =>
    cases onwards
    simpa using beside
  | cons statement statements inductionHypothesis =>
    by_cases missing : between.root.lookup table = none
    · rw [List.foldlM_cons] at onwards
      obtain ⟨middle, added, onwards⟩ := Option.bind_eq_some_iff.mp onwards
      obtain ⟨step, remains⟩ : Beside table entries middle
          ((between.behind table entries).add statement) ∧ middle.Placed := by
        obtain ⟨pair, rfl⟩ | ⟨path, key, isHeader⟩ := statementCases statement
        · exact pairBeside placed added missing entries
        · exact ⟨headerBeside isHeader added missing entries between.current,
            headerPlaced isHeader added⟩
      rw [beside.apart missing, Option.bind_some]
      exact inductionHypothesis step remains onwards
    · -- The table has been named already, and what is nested in it stays.
      have named : after.root.lookup table ≠ none := Option.isSome_iff_ne_none.mp
        ((runExtends onwards).present (Option.isSome_iff_ne_none.mpr missing))
      refine ⟨fun absent => absurd absent named, fun _ result combined => ?_⟩
      obtain ⟨first, isNext, rest⟩ := Option.bind_eq_some_iff.mp combined
      obtain ⟨origin, children, key, value, found, inside, holds⟩ :=
        beside.nested missing first isNext
      obtain ⟨origin, more, later, stays, remains, holdsOn⟩ := runKeeps rest found inside
      exact ⟨origin, more, key, later, stays, remains, holdsOn holds⟩

end Beside

section Alone

variable {table name : String} {entries : Entries}

/-- The document of one table, in which pairs are defined. -/
def alone (table : String) (entries : Entries) : Document :=
  ⟨[(table, .table .header entries)], [table]⟩

theorem changeAlone (change : Entries → Option Entries) (path : List String) (entries : Entries) :
    Entries.changeAt change (table :: path) (alone table entries).root =
      (Entries.changeAt change path entries).map fun more => (alone table more).root := by
  rw [alone, Entries.changeWithin]
  simp [alone, Entries.replace]

/-- Pairs of new keys are appended to the table. -/
theorem pairsAdded (members : Entries) (once : ((entries ++ members).map Prod.fst).Nodup) :
    (members.map fun member => Statement.pair ⟨[], member.1, member.2⟩).foldlM add
      (alone table entries) = some (alone table (entries ++ members)) := by
  induction members generalizing entries with
  | nil => simp
  | cons member members inductionHypothesis =>
    have missing : entries.lookup member.1 = none := by
      refine List.lookup_eq_none_iff.mpr fun entry inside => ?_
      rw [List.map_append, List.nodup_append] at once
      have apart := once.2.2 entry.1 (List.mem_map_of_mem inside) member.1 (by simp)
      simpa using apart.symm
    have defined : Entries.changeAt (Entries.defineDotted [] member.1 member.2) [table]
        (alone table entries).root = some (alone table (entries ++ [member])).root := by
      rw [changeAlone, Entries.changeAt, Entries.defineDotted, Entries.define, missing]
      rfl
    have added : (alone table entries).add (.pair ⟨[], member.1, member.2⟩) =
        some (alone table (entries ++ [member])) :=
      congrArg (fun root => root.bind fun root => some (Document.mk root [table])) defined
    rw [List.map_cons, List.foldlM_cons, added]
    have others := @inductionHypothesis (entries ++ [member]) (by simpa using once)
    simpa using others

/-- A statement about a key of the table fails or puts that key. -/
theorem concernedAdded (concerns : statement.Concerns table name)
    (added : (alone table entries).add statement = some after) :
    ∃ more own, after.root = (alone table more).root ∧ Entries.Puts name own entries more := by
  obtain ⟨pair, rfl⟩ | ⟨path, key, isHeader⟩ := statementCases statement
  · obtain ⟨root, changed, rfl⟩ := pairAdds added
    rw [show (alone table entries).current = [table] from rfl, changeAlone] at changed
    obtain ⟨more, defined, rfl⟩ := Option.map_eq_some_iff.mp changed
    obtain ⟨own, puts⟩ := Entries.dottedPuts defined
    exact ⟨more, own, rfl, concerns ▸ puts⟩
  · obtain ⟨inner, rfl, isFirst⟩ := concerns.named isHeader
    obtain ⟨opener, opens, adds⟩ := headerOpens isHeader
    rw [adds, changeAlone, Option.map_map] at added
    obtain ⟨more, opened, rfl⟩ := Option.map_eq_some_iff.mp added
    obtain ⟨own, puts, -⟩ := opens.putsAt opened
    exact ⟨more, own, rfl, isFirst ▸ puts⟩

/-- A run over such a statement leaves the key in the table, where no value without keys had it. -/
theorem concernedRun (concerns : statement.Concerns table name)
    (run : (statement :: statements).foldlM add (alone table entries) = some after) :
    (∀ old, entries.lookup name = some old → old.HoldsKeys) ∧
      ∃ origin children value, after.root.lookup table = some (.table origin children) ∧
        children.lookup name = some value := by
  rw [List.foldlM_cons] at run
  obtain ⟨between, added, onwards⟩ := Option.bind_eq_some_iff.mp run
  obtain ⟨more, own, root, puts⟩ := concernedAdded concerns added
  have found : between.root.lookup table = some (.table .header more) := by
    simp [root, alone]
  obtain ⟨origin, children, value, stays, remains, -⟩ := runKeeps onwards found puts.own
  exact ⟨fun old present => (puts.extended old present).1, origin, children, value, stays, remains⟩

/-- Statements that begin with a header are read beside the table. -/
theorem runBeside {path : List String} {key : String}
    (isHeader : statement.header? = some (path, key))
    (built : ofStatements (statement :: statements) = some after) (entries : Entries) :
    Beside table entries after ((statement :: statements).foldlM add (alone table entries)) := by
  rw [ofStatements, List.foldlM_cons] at built
  obtain ⟨between, added, onwards⟩ := Option.bind_eq_some_iff.mp built
  have beside := @headerBeside _ _ _ table _ _ isHeader added rfl entries [table]
  exact beside.run (headerPlaced isHeader added) onwards

end Alone

end Document

end LintRepair.Toml
