/-
This file follows the reader through arrays and objects whose items it keeps.
-/

import LintRepair.Proofs.LintReport.Value

namespace LintRepair.LintReport

namespace State

section Lists

variable {Item : Type} {Text : Item → List Char → Prop} (place : List Item → Place)
  (Before : Phase → Prop) {following : Phase} {all : List Item}

/-- Items are read one behind the other. What a place holds tells which items stand before it. -/
theorem readsItems (isBefore : Before following)
    (comma : ∀ done, feed ⟨place done, [], .separator⟩ ',' = .ok ⟨place done, [], following⟩)
    (readsItem : ∀ done item rest text phase, done ++ item :: rest = all → Text item text →
      Before phase →
        Reads ⟨place done, [], phase⟩ text ⟨place (done ++ [item]), [], .separator⟩)
    {items : List Item} {text : List Char} (listed : Listed Text items text)
    (notEmpty : items ≠ []) (done : List Item) (whole : done ++ items = all) {phase : Phase}
    (before : Before phase) :
    Reads ⟨place done, [], phase⟩ text ⟨place all, [], .separator⟩ := by
  induction listed generalizing done phase with
  | none => cases notEmpty rfl
  | @last item text form =>
    rw [← whole]
    exact readsItem done item [] text phase whole form before
  | @next item items text rest form others _ inductionHypothesis =>
    have first := readsItem done item items text phase whole form before
    have onwards := inductionHypothesis others (done ++ [item]) (by simpa using whole) isBefore
    exact first.next (by decide) (comma _) onwards

/-- The items of a list and the bracket behind them. -/
theorem readsListed {first : Phase} (firstBefore : Before first) (firstBetween : first.IsBetween)
    (isBefore : Before following)
    (comma : ∀ done, feed ⟨place done, [], .separator⟩ ',' = .ok ⟨place done, [], following⟩)
    (readsItem : ∀ done item rest text phase, done ++ item :: rest = all → Text item text →
      Before phase →
        Reads ⟨place done, [], phase⟩ text ⟨place (done ++ [item]), [], .separator⟩)
    {bracket : Char} {after : State} (delimits : Delimits bracket)
    (closes : ∀ phase, phase = first ∨ phase = .separator →
      feed ⟨place all, [], phase⟩ bracket = .ok after)
    {inside : List Char} (listed : Listed Text all inside) (rest : List Char) :
    feedAll ⟨place [], [], first⟩ (inside ++ bracket :: rest) = after.feedAll rest := by
  by_cases empty : all = []
  · subst empty
    cases listed with
    | none isBlank => rw [feedBlank firstBetween isBlank, feedAllCons (closes first (.inl rfl))]
  · have reads := readsItems place Before isBefore comma readsItem listed empty [] rfl firstBefore
    rw [reads bracket rest delimits, feedAllCons (closes .separator (.inr rfl))]

end Lists

/-- The items of an array are read one behind the other. -/
theorem readsArray {Item : Type} {Text : Item → List Char → Prop} (place : List Item → Place)
    (comma : ∀ done, feed ⟨place done, [], .separator⟩ ',' = .ok ⟨place done, [], .value⟩)
    {items : List Item} (readsItem : ∀ done, ∀ item ∈ items, ∀ text phase, Text item text →
      phase.BeforeValue →
        Reads ⟨place done, [], phase⟩ text ⟨place (done ++ [item]), [], .separator⟩)
    {state after : State} (opens : state.feed '[' = .ok ⟨place [], [], .itemOrEnd⟩)
    (closes : ∀ phase, phase = .itemOrEnd ∨ phase = .separator →
      feed ⟨place items, [], phase⟩ ']' = .ok after)
    {text : List Char} (form : ArrayText Text items text) (rest : List Char) :
    state.feedAll (text ++ rest) = after.feedAll rest := by
  obtain ⟨inside, listed, rfl⟩ := form
  rw [List.cons_append, List.cons_append, feedAllCons opens, List.append_assoc]
  refine readsListed place Phase.BeforeValue (.inr rfl) trivial (.inl rfl) comma ?_ (by decide)
    closes listed rest
  intro done item others text phase whole spaced before
  have isItem : item ∈ items := by
    rw [← whole]
    simp
  exact .spaced spaced before.isBetween trivial fun inside form =>
    readsItem done item isItem inside phase form before

/-- A key, a colon and the value that belongs to the key. -/
theorem readsKeyed {place named : Place} {phase : Phase} {after : State} {name : String}
    {written value : List Char} (key : Spaced (StringText name) written) (before : phase.BeforeKey)
    (accepts : place.withKey name = .ok named) (reads : Reads ⟨named, [], .value⟩ value after) :
    Reads ⟨place, [], phase⟩ (written ++ ':' :: value) after := by
  have readsName : Reads ⟨place, [], phase⟩ written ⟨named, [], .colon⟩ := by
    refine .spaced key before.isBetween trivial ?_
    intro inside form
    exact readsKey form before accepts
  exact readsName.next (by decide) rfl reads

/-- What the reader has to do with the members of an object. A place tells which members have been
read; the value of a field is read where the key has named it, other values are passed over. -/
structure ReadsObject {Field : Type} (key : Field → String) (Text : Field → List Char → Prop)
    (needed : Field → Prop) (place : List (Option Field) → Place) (after : State) : Prop where
  comma : ∀ members, feed ⟨place members, [], .separator⟩ ',' = .ok ⟨place members, [], .key⟩
  field : ∀ members field, some field ∉ members → ∃ named,
    (place members).withKey (key field) = .ok named ∧ ∀ text, Text field text →
      Reads ⟨named, [], .value⟩ text ⟨place (members ++ [some field]), [], .separator⟩
  further : ∀ members name, (∀ field, key field ≠ name) →
    (place members).withKey name = .ok (place (members ++ [none]))
  passes : ∀ members, PassesOver (place (members ++ [none])) []
  closes : ∀ members, (∀ field, needed field → some field ∈ members) →
    ∀ phase, phase = .keyOrEnd ∨ phase = .separator →
      feed ⟨place members, [], phase⟩ '}' = .ok after

namespace ReadsObject

variable {Field : Type} {key : Field → String} {Text : Field → List Char → Prop}
  {needed : Field → Prop} {place : List (Option Field) → Place} {after : State}
  (object : ReadsObject key Text needed place after)

include object

theorem readsMember {members : List (Option Field)} {member : Option Field}
    (unread : ∀ field, member = some field → some field ∉ members) {text : List Char}
    (form : MemberText key Text member text) {phase : Phase} (before : phase.BeforeKey) :
    Reads ⟨place members, [], phase⟩ text ⟨place (members ++ [member]), [], .separator⟩ := by
  cases form with
  | @field field name value isKey isValue =>
    obtain ⟨named, accepts, readsValue⟩ := object.field members field (unread field rfl)
    exact readsKeyed isKey before accepts (.spaced isValue trivial trivial readsValue)
  | @further other name value further isKey json =>
    have passed := passesJson json [] .value (object.passes members) (.inl rfl)
    exact readsKeyed isKey before (object.further members other further) passed

/-- An object is read whatever the order of its members is. No key is read twice. -/
theorem reads {state : State} (opens : state.feed '{' = .ok ⟨place [], [], .keyOrEnd⟩)
    {text : List Char} (form : ObjectText key Text needed text) : Reads state text after := by
  obtain ⟨members, inside, listed, once, complete, rfl⟩ := form
  intro next rest _
  rw [List.cons_append, List.cons_append, feedAllCons opens, List.append_assoc]
  refine readsListed place Phase.BeforeKey (.inr rfl) trivial (.inl rfl) object.comma ?_ (by decide)
    (object.closes members complete) listed _
  intro done member others text phase whole form before
  refine object.readsMember ?_ form before
  rintro field rfl inside
  rw [← whole, List.reduceOption_append, List.reduceOption_cons_of_some, List.nodup_append] at once
  have inBoth := once.2.2 field (List.reduceOption_mem_iff.mpr inside) field List.mem_cons_self
  exact inBoth rfl

end ReadsObject

end State

end LintRepair.LintReport
