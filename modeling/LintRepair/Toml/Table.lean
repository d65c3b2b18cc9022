/-
This file holds TOML tables and the rules by which headers and dotted keys extend them.
-/

namespace LintRepair.Toml

/-- How a table came to be. A table may be implied by a longer header or by a dotted key before it
is written itself; an inline table is complete where it is written. -/
inductive Origin where
  | header
  | implied
  | dotted
  | inline
deriving Repr, DecidableEq

/-- A value. No setting is a number, a boolean or a date, so these are not told apart. -/
inductive Value where
  | text (value : String)
  | other
  | array (items : List Value)
  | table (origin : Origin) (entries : List (String × Value))
  | tables (elements : List (List (String × Value)))

/-- The keys of a table with their values, in the order in which they were written. -/
abbrev Entries := List (String × Value)

namespace Entries

/-- The value of a key that is present gives way to another one. -/
def replace (entries : Entries) (key : String) (value : Value) : Entries :=
  entries.map fun entry => if entry.1 = key then (key, value) else entry

/-- A key is defined at most once. -/
def define (key : String) (value : Value) (entries : Entries) : Option Entries :=
  match entries.lookup key with
  | none => some (entries ++ [(key, value)])
  | some _ => none

/-- A dotted key defines its last part in a table that dotted keys made. It may pass through a
table that a header implied or through the last element of an array of tables, but it neither ends
there nor enters a table that is written already. -/
def defineDotted : List String → String → Value → Entries → Option Entries
  | [], key, value, entries => entries.define key value
  | part :: path, key, value, entries =>
    match entries.lookup part with
    | none => do
      let children ← defineDotted path key value []
      return entries ++ [(part, .table .dotted children)]
    | some (.table .dotted children) => do
      let children ← defineDotted path key value children
      return entries.replace part (.table .dotted children)
    | some (.table .implied children) =>
      if path.isEmpty then none
      else do
        let children ← defineDotted path key value children
        return entries.replace part (.table .implied children)
    | some (.tables elements) =>
      match path, elements.getLast? with
      | _ :: _, some element => do
        let element ← defineDotted path key value element
        return entries.replace part (.tables (elements.dropLast ++ [element]))
      | _, _ => none
    | some _ => none

/-- A change is made in the table at a path. Tables on the way are implied when they are missing,
and of an array of tables the last element counts. -/
def changeAt (change : Entries → Option Entries) : List String → Entries → Option Entries
  | [], entries => change entries
  | part :: path, entries =>
    match entries.lookup part with
    | none => do
      let children ← changeAt change path []
      return entries ++ [(part, .table .implied children)]
    | some (.table .inline _) => none
    | some (.table origin children) => do
      let children ← changeAt change path children
      return entries.replace part (.table origin children)
    | some (.tables elements) =>
      match elements.getLast? with
      | some element => do
        let element ← changeAt change path element
        return entries.replace part (.tables (elements.dropLast ++ [element]))
      | none => none
    | some _ => none

/-- A header writes a table that is missing or only implied so far. -/
def openTable (key : String) (entries : Entries) : Option Entries :=
  match entries.lookup key with
  | none => some (entries ++ [(key, .table .header [])])
  | some (.table .implied children) => some (entries.replace key (.table .header children))
  | some _ => none

/-- A double header adds an element to an array of tables. -/
def openElement (key : String) (entries : Entries) : Option Entries :=
  match entries.lookup key with
  | none => some (entries ++ [(key, .tables [[]])])
  | some (.tables elements) => some (entries.replace key (.tables (elements ++ [[]])))
  | some _ => none

end Entries

/-- A key, which may have several parts, with its value. -/
structure Pair where
  path : List String
  key : String
  value : Value

/-- The table that pairs define one after the other. -/
def tableOfPairs (pairs : List Pair) : Option Entries :=
  pairs.foldlM (fun entries pair => Entries.defineDotted pair.path pair.key pair.value entries) []

/-- A line of a document that is not blank. -/
inductive Statement where
  | pair (pair : Pair)
  | table (path : List String) (key : String)
  | element (path : List String) (key : String)

/-- The root table, and the path of the table to which the next pairs belong. -/
structure Document where
  root : Entries
  current : List String

namespace Document

def empty : Document :=
  ⟨[], []⟩

def add (document : Document) : Statement → Option Document
  | .pair pair => do
    let define := Entries.defineDotted pair.path pair.key pair.value
    return { document with root := ← Entries.changeAt define document.current document.root }
  | .table path key => do
    let root ← Entries.changeAt (Entries.openTable key) path document.root
    return ⟨root, path ++ [key]⟩
  | .element path key => do
    let root ← Entries.changeAt (Entries.openElement key) path document.root
    return ⟨root, path ++ [key]⟩

def ofStatements (statements : List Statement) : Option Document :=
  statements.foldlM add empty

end Document

end LintRepair.Toml
