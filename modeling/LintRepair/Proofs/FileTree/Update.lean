/-
This file shows how a tree changes when the texts of its files change: everything else stays, so
every path leads where it led before, and paths with the same components lead to one place.
-/

import LintRepair.FileTree.Resolution
import Mathlib.Tactic.Common

namespace LintRepair

/-- The bytes of a text in a file. -/
def encoded (text : String) : List UInt8 :=
  text.toUTF8.data.toList

theorem decode_eq_some_iff {content : List UInt8} {text : String} :
    String.fromUTF8? ⟨content.toArray⟩ = some text ↔ content = encoded text := by
  unfold String.fromUTF8? encoded
  constructor
  · intro decoded
    split at decoded
    · simp only [Option.some.injEq] at decoded
      rw [← decoded]
      simp [String.fromUTF8]
    · cases decoded
  · rintro rfl
    have valid := text.isValidUTF8
    simp [String.fromUTF8, valid]

theorem encodedInjective {left right : String} (same : encoded left = encoded right) :
    left = right := by
  have decoded := decode_eq_some_iff.mpr same
  rw [decode_eq_some_iff.mpr rfl] at decoded
  exact Option.some.inj decoded

/-- A file whose text is changed by a function. What is no text that can be read stays. -/
def Entry.rewrite (change : List Char → List Char) : Entry → Entry
  | .file content ⟨none, writing⟩ =>
    match String.fromUTF8? ⟨content.toArray⟩ with
    | some text => .file (encoded (String.ofList (change text.toList))) ⟨none, writing⟩
    | none => .file content ⟨none, writing⟩
  | .file content ⟨some error, writing⟩ => .file content ⟨some error, writing⟩
  | .directory => .directory
  | .device => .device
  | .link target => .link target

namespace Entry

theorem rewriteText (change : List Char → List Char) (text : String) (writing : Writing) :
    rewrite change (.file (encoded text) ⟨none, writing⟩) =
      .file (encoded (String.ofList (change text.toList))) ⟨none, writing⟩ := by
  simp [rewrite, decode_eq_some_iff.mpr rfl]

/-- An entry is a text that can be read, or no change does anything to it. -/
theorem textOrKept (entry : Entry) :
    (∃ text writing, entry = .file (encoded text) ⟨none, writing⟩) ∨
      ∀ change, rewrite change entry = entry := by
  cases entry with
  | directory => exact .inr fun _ => rfl
  | device => exact .inr fun _ => rfl
  | link target => exact .inr fun _ => rfl
  | file content access =>
    obtain ⟨reading, writing⟩ := access
    cases reading with
    | some error => exact .inr fun _ => rfl
    | none =>
      cases decoded : String.fromUTF8? ⟨content.toArray⟩ with
      | none => exact .inr fun change => by simp [rewrite, decoded]
      | some text => exact .inl ⟨text, writing, by rw [decode_eq_some_iff.mp decoded]⟩

/-- A changed file is a file with the same access. -/
theorem rewriteFile (change : List Char → List Char) (entry : Entry) :
    (∃ old new access, entry = .file old access ∧ rewrite change entry = .file new access) ∨
      rewrite change entry = entry := by
  rcases entry.textOrKept with ⟨text, writing, rfl⟩ | kept
  · exact .inl ⟨_, _, _, rfl, rewriteText change text writing⟩
  · exact .inr (kept change)

theorem rewriteId (entry : Entry) : entry.rewrite (fun text => text) = entry := by
  rcases entry.textOrKept with ⟨text, writing, rfl⟩ | kept
  · rw [rewriteText, String.ofList_toList]
  · exact kept _

theorem rewriteRewrite (first second : List Char → List Char) (entry : Entry) :
    (entry.rewrite first).rewrite second = entry.rewrite fun text => second (first text) := by
  rcases entry.textOrKept with ⟨text, writing, rfl⟩ | kept
  · simp only [rewriteText, String.toList_ofList]
  · simp only [kept]

end Entry

namespace FileTree

theorem lookupCons (place : Location) (entry : Entry) (entries : List (Location × Entry))
    (asked : Location) :
    ((place, entry) :: entries).lookup asked =
      if asked = place then some entry else entries.lookup asked := by
  by_cases same : asked = place
  · simp [same]
  · rw [List.lookup_cons, beq_eq_false_iff_ne.mpr same, if_neg same]

theorem lookupReplaced (entries : List (Location × Entry)) (location : Location) (entry : Entry)
    (asked : Location) :
    (entries.map fun old => if old.1 = location then (location, entry) else old).lookup asked =
      if asked = location ∧ (entries.lookup location).isSome then some entry
      else entries.lookup asked := by
  induction entries with
  | nil => simp
  | cons old entries inductionHypothesis =>
    obtain ⟨place, content⟩ := old
    rw [List.map_cons, lookupCons, lookupCons]
    by_cases replaced : place = location
    · subst replaced
      rw [if_pos rfl, lookupCons, inductionHypothesis]
      by_cases own : asked = place <;> simp [own]
    · rw [if_neg replaced, lookupCons, inductionHypothesis, if_neg (Ne.symm replaced)]
      by_cases own : asked = place
      · simp [own, replaced]
      · simp [own]

/-- An entry that is put somewhere is found there, and all others stay. -/
theorem entryPut (tree : FileTree) {location : Location} (notRoot : location ≠ []) (entry : Entry)
    (other : Location) :
    (tree.put location entry).entryAt? other =
      if other = location then some entry else tree.entryAt? other := by
  by_cases root : other = []
  · simp [entryAt?, root, Ne.symm notRoot]
  · simp only [entryAt?, root, ↓reduceIte, put]
    split
    · next known => simp [lookupReplaced, known]
    · next unknown =>
      rw [Option.not_isSome_iff_eq_none] at unknown
      rw [List.lookup_append, lookupCons]
      by_cases asked : other = location <;> simp [asked, unknown]

theorem notRootOfFile {tree : FileTree} {location : Location} {content : List UInt8}
    {access : Access} (known : tree.entryAt? location = some (.file content access)) :
    location ≠ [] := by
  rintro rfl
  simp [entryAt?] at known

/-- New bytes in a file change the file alone. -/
theorem entryPutContent (tree : FileTree) (location : Location) (content : List UInt8)
    (other : Location) : (tree.putContent location content).entryAt? other =
      (tree.entryAt? other).map fun
        | .file old access => .file (if other = location then content else old) access
        | entry => entry := by
  unfold putContent
  split
  · next old access known =>
    rw [entryPut tree (notRootOfFile known)]
    by_cases own : other = location
    · simp [own, known]
    · cases tree.entryAt? other with
      | none => simp [own]
      | some entry => cases entry <;> simp [own]
  · next noFile =>
    cases known : tree.entryAt? other with
    | none => rfl
    | some entry =>
      cases entry with
      | file old access =>
        have own : other ≠ location := fun same => noFile old access (same ▸ known)
        simp [own]
      | directory => rfl
      | device => rfl
      | link target => rfl

theorem entryPutContentElsewhere (tree : FileTree) {location other : Location}
    (content : List UInt8) (elsewhere : other ≠ location) :
    (tree.putContent location content).entryAt? other = tree.entryAt? other := by
  rw [entryPutContent]
  cases tree.entryAt? other with
  | none => rfl
  | some entry => cases entry <;> simp [elsewhere]

theorem workingDirectoryPutContent (tree : FileTree) (location : Location)
    (content : List UInt8) :
    (tree.putContent location content).workingDirectory = tree.workingDirectory := by
  unfold putContent
  split <;> rfl

/-- Bytes that can be written are all written. -/
theorem writeDone {tree : FileTree} {location : Location} {content : List UInt8}
    (writable : tree.writeError? location content = none) :
    tree.write location content = tree.putContent location content := by
  unfold writeError? at writable
  unfold write
  cases known : tree.entryAt? location with
  | none => simp [known] at writable
  | some entry =>
    cases entry with
    | directory => simp [known] at writable
    | link target => simp [known] at writable
    | device => simp [putContent, known]
    | file old access =>
      cases writing : access.writing with
      | allowed => simp only [writing]
      | refused error => simp [known, writing] at writable
      | limited room error =>
        have enough : content.length ≤ room := by simpa [known, writing] using writable
        simp only [writing, List.take_of_length_le enough]

theorem entryWriteElsewhere (tree : FileTree) {location other : Location} (content : List UInt8)
    (elsewhere : other ≠ location) :
    (tree.write location content).entryAt? other = tree.entryAt? other := by
  unfold write
  split
  · split
    · exact entryPutContentElsewhere tree content elsewhere
    · rfl
    · exact entryPutContentElsewhere tree _ elsewhere
  · rfl

/-- A file takes a text in the place of another, which is only written when it is a new one. -/
def Takes (tree : FileTree) (location : Location) (old new : List Char) : Prop :=
  new ≠ old → tree.writeError? location (encoded (String.ofList new)) = none

theorem notTakes_iff {tree : FileTree} {location : Location} {old new : List Char} :
    ¬ tree.Takes location old new ↔ new ≠ old ∧ ∃ error,
      tree.writeError? location (encoded (String.ofList new)) = some error := by
  rw [Takes, Classical.not_imp, ← ne_eq, Option.ne_none_iff_exists']

/-- One tree comes from another when the text of the file at each location is changed by the
function for that location and nothing else changes. -/
structure Updates (change : Location → List Char → List Char) (before after : FileTree) :
    Prop where
  entries : ∀ location, after.entryAt? location =
    (before.entryAt? location).map (Entry.rewrite (change location))
  workingDirectory : after.workingDirectory = before.workingDirectory
  empty : ∀ location, change location [] = []

theorem updatesRefl (tree : FileTree) : Updates (fun _ text => text) tree tree := by
  refine ⟨fun location => ?_, rfl, fun _ => rfl⟩
  cases tree.entryAt? location with
  | none => rfl
  | some entry => simp [Entry.rewriteId]

/-- Only what a change makes of the texts that are there matters. -/
theorem Updates.congr {first second : Location → List Char → List Char} {before after : FileTree}
    (updates : Updates first before after) (empty : ∀ location, second location [] = [])
    (agree : ∀ location text writing,
      before.entryAt? location = some (.file (encoded text) ⟨none, writing⟩) →
        first location text.toList = second location text.toList) :
    Updates second before after := by
  refine ⟨fun location => ?_, updates.workingDirectory, empty⟩
  rw [updates.entries location]
  cases known : before.entryAt? location with
  | none => rfl
  | some entry =>
    rcases entry.textOrKept with ⟨text, writing, rfl⟩ | kept
    · simp only [Option.map_some, Entry.rewriteText, agree location text writing known]
    · simp only [Option.map_some, kept]

theorem Updates.trans {first second : Location → List Char → List Char}
    {before between after : FileTree} (early : Updates first before between)
    (late : Updates second between after) :
    Updates (fun location text => second location (first location text)) before after := by
  refine ⟨fun location => ?_, late.workingDirectory.trans early.workingDirectory,
    fun location => by rw [early.empty, late.empty]⟩
  rw [late.entries location, early.entries location, Option.map_map]
  congr 1
  funext entry
  exact Entry.rewriteRewrite _ _ entry

section

variable {change : Location → List Char → List Char} {before after : FileTree}

theorem Updates.entrySame (updates : Updates change before after) {location : Location}
    (same : ∀ text, change location text = text) :
    after.entryAt? location = before.entryAt? location := by
  have unchanged : change location = fun text => text := funext same
  rw [updates.entries location, unchanged]
  cases before.entryAt? location with
  | none => rfl
  | some entry => rw [Option.map_some, Entry.rewriteId]

/-- Files stay files, and everything else stays as it is. -/
theorem Updates.enter (updates : Updates change before after) (location : Location) :
    after.enter location = before.enter location := by
  simp only [FileTree.enter, updates.entries location]
  cases before.entryAt? location with
  | none => rfl
  | some entry =>
    rcases entry.rewriteFile (change location) with ⟨old, new, access, rfl, rewritten⟩ | kept
    · simp only [Option.map_some, rewritten]
    · rw [Option.map_some, kept]

theorem Updates.lead (updates : Updates change before after) : after.lead = before.lead := by
  funext location part
  simp only [FileTree.lead, updates.enter, updates.entries location]
  cases before.entryAt? location with
  | none => rfl
  | some entry =>
    rcases entry.rewriteFile (change location) with ⟨old, new, access, rfl, rewritten⟩ | kept
    · simp only [Option.map_some, rewritten]
    · rw [Option.map_some, kept]

theorem followLeads (sameLead : after.lead = before.lead)
    (through : Location → List (List Char) → Except FileError Location) :
    after.follow through = before.follow through := by
  funext location parts
  induction parts generalizing location with
  | nil => rfl
  | cons part parts inductionHypothesis =>
    simp only [follow, sameLead, inductionHypothesis]

theorem walkLeads (sameLead : after.lead = before.lead) (links : Nat) :
    after.walk links = before.walk links := by
  induction links with
  | zero => exact followLeads sameLead _
  | succ links inductionHypothesis =>
    rw [walk, walk, followLeads sameLead, inductionHypothesis]

theorem Updates.resolve (updates : Updates change before after) (path : Path) :
    after.resolve path = before.resolve path := by
  simp only [FileTree.resolve, resolveFrom, updates.workingDirectory, walkLeads updates.lead]

/-- Whether bytes can be written does not depend on those that are there. -/
theorem Updates.writeError (updates : Updates change before after) (location : Location)
    (content : List UInt8) :
    after.writeError? location content = before.writeError? location content := by
  simp only [writeError?, updates.entries location]
  cases before.entryAt? location with
  | none => rfl
  | some entry =>
    rcases entry.rewriteFile (change location) with ⟨old, new, access, rfl, rewritten⟩ | kept
    · simp only [Option.map_some, rewritten]
    · rw [Option.map_some, kept]

end

/-- A text is read where its path leads, from its bytes. -/
theorem readText_eq_ok_iff {tree : FileTree} {path : Path} {location : Location} {text : String} :
    tree.readText path = .ok (location, text) ↔
      tree.resolve path = .ok location ∧ tree.contentAt location = .ok (encoded text) := by
  unfold readText
  cases found : tree.resolve path with
  | error error => simp [bind, Except.bind]
  | ok place =>
    cases read : tree.contentAt place with
    | error error =>
      simp only [bind, Except.bind, read, Except.ok.injEq, reduceCtorEq, false_iff, not_and]
      rintro rfl
      simp [read]
    | ok content =>
      simp only [bind, Except.bind, read, Except.ok.injEq]
      cases decoded : String.fromUTF8? ⟨content.toArray⟩ with
      | none =>
        simp only [reduceCtorEq, false_iff, not_and]
        rintro rfl same
        rw [read, Except.ok.injEq, ← decode_eq_some_iff, decoded] at same
        cases same
      | some other =>
        obtain rfl := decode_eq_some_iff.mp decoded
        simp only [pure, Except.pure, Except.ok.injEq, Prod.mk.injEq]
        constructor
        · rintro ⟨rfl, rfl⟩
          exact ⟨rfl, read⟩
        · rintro ⟨rfl, same⟩
          exact ⟨rfl, encodedInjective (by simpa [read] using same)⟩

/-- What can be read is a file that allows it, or an empty device. -/
theorem entryOfContent {tree : FileTree} {location : Location} {content : List UInt8}
    (read : tree.contentAt location = .ok content) :
    (∃ writing, tree.entryAt? location = some (.file content ⟨none, writing⟩)) ∨
      tree.entryAt? location = some .device ∧ content = [] := by
  unfold contentAt at read
  cases known : tree.entryAt? location with
  | none => simp [known] at read
  | some entry =>
    cases entry with
    | directory => simp [known] at read
    | link target => simp [known] at read
    | device => exact .inr ⟨rfl, by simpa [known] using read.symm⟩
    | file old access =>
      obtain ⟨reading, writing⟩ := access
      cases reading with
      | some error => simp [known] at read
      | none =>
        have same : old = content := by simpa [known] using read
        exact .inl ⟨writing, by rw [same]⟩

theorem contentOfText {tree : FileTree} {location : Location} {text : String} {writing : Writing}
    (known : tree.entryAt? location = some (.file (encoded text) ⟨none, writing⟩)) :
    tree.contentAt location = .ok (encoded text) := by
  simp [contentAt, known]

/-- The bytes of what a path leads to. -/
def bytesOf (tree : FileTree) (path : Path) : Except FileError (List UInt8) :=
  tree.resolve path >>= tree.contentAt

theorem bytesOfReadable {tree : FileTree} {path : Path} {location : Location} {text : String}
    (readable : tree.readText path = .ok (location, text)) :
    tree.bytesOf path = .ok (encoded text) := by
  obtain ⟨leads, read⟩ := readText_eq_ok_iff.mp readable
  rw [bytesOf, leads]
  exact read

/-- The text of the file that a path names, or none when there is none to read. -/
def textOf (tree : FileTree) (path : Path) : List Char :=
  match tree.readText path with
  | .ok (_, text) => text.toList
  | .error _ => []

theorem textOfReadable {tree : FileTree} {path : Path} {location : Location} {text : String}
    (readable : tree.readText path = .ok (location, text)) : tree.textOf path = text.toList := by
  rw [textOf, readable]

section

variable {change : Location → List Char → List Char} {before after : FileTree}

/-- A changed tree yields the changed text of every file that could be read. -/
theorem Updates.readText (updates : Updates change before after) {path : Path}
    {location : Location} {text : String} (readable : before.readText path = .ok (location, text)) :
    after.readText path = .ok (location, String.ofList (change location text.toList)) := by
  obtain ⟨leads, read⟩ := readText_eq_ok_iff.mp readable
  rw [readText_eq_ok_iff, updates.resolve]
  refine ⟨leads, ?_⟩
  rcases entryOfContent read with ⟨writing, known⟩ | ⟨known, nothing⟩
  · have rewritten := updates.entries location
    rw [known, Option.map_some, Entry.rewriteText] at rewritten
    exact contentOfText rewritten
  · have isEmpty : text = "" := encodedInjective nothing
    subst isEmpty
    rw [String.toList_empty, updates.empty]
    simp [contentAt, updates.entries location, known, Entry.rewrite, encoded]

/-- What could not be read stays unreadable. -/
theorem Updates.readTextError (updates : Updates change before after) {path : Path}
    {error : FileError} (unreadable : before.readText path = .error error) :
    after.readText path = .error error := by
  unfold FileTree.readText at unreadable ⊢
  rw [updates.resolve]
  cases leads : before.resolve path with
  | error other =>
    simp only [leads, bind, Except.bind] at unreadable ⊢
    exact unreadable
  | ok location =>
    simp only [leads, bind, Except.bind] at unreadable ⊢
    suffices same : after.contentAt location = before.contentAt location by rwa [same]
    simp only [contentAt, updates.entries location]
    cases known : before.entryAt? location with
    | none => rfl
    | some entry =>
      rcases entry.textOrKept with ⟨text, writing, rfl⟩ | kept
      · -- A text that is there would have been read.
        simp [contentOfText known, decode_eq_some_iff.mpr rfl, pure, Except.pure] at unreadable
      · rw [Option.map_some, kept]

end

end FileTree

end LintRepair
