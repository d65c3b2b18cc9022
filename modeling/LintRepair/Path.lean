/-
This file compares paths by their components.
-/

import LintRepair.Text.Separate

namespace LintRepair

/-- A path keeps the spelling under which it was reported. -/
structure Path where
  spelling : String
deriving Repr, DecidableEq, Inhabited

namespace Path

inductive Component where
  | root
  | current
  | parent
  | name (text : List Char)
deriving Repr, DecidableEq

/-- Empty parts and single dots between slashes name nothing. -/
def component? : List Char → Option Component
  | [] => none
  | ['.'] => none
  | ['.', '.'] => some .parent
  | text => some (.name text)

/-- The parts of the spelling between slashes. -/
def parts (path : Path) : List (List Char) :=
  Text.separate '/' path.spelling.toList

/-- A leading slash stands for the root. A single dot counts only at the start of a relative
path. -/
def components (path : Path) : List Component :=
  let named := path.parts.filterMap component?
  match path.parts with
  | [] :: _ :: _ => .root :: named
  | ['.'] :: _ => .current :: named
  | _ => named

/-- Components are ordered by kind and names by their characters. -/
def Component.key : Component → List Nat
  | root => [0]
  | current => [1]
  | parent => [2]
  | name text => 3 :: text.map Char.toNat

def key (path : Path) : List (List Nat) :=
  path.components.map Component.key

/-- Paths are ordered component by component, so that a directory's files stand together. -/
instance : Ord Path where
  compare left right := compare left.key right.key

/-- The last component, if it is a name. -/
def fileName? (path : Path) : Option String :=
  match path.components.getLast? with
  | some (.name text) => some (String.ofList text)
  | _ => none

theorem Component.keyInjective {left right : Component} (equal : left.key = right.key) :
    left = right := by
  have sameCharacters : ∀ first second : List Char,
      first.map Char.toNat = second.map Char.toNat → first = second := by
    intro first
    induction first with
    | nil =>
      intro second same
      cases second with
      | nil => rfl
      | cons character second => simp at same
    | cons character first inductionHypothesis =>
      intro second same
      cases second with
      | nil => simp at same
      | cons other second =>
        simp only [List.map_cons, List.cons.injEq] at same
        rw [Char.toNat_inj.mp same.1, inductionHypothesis second same.2]
  cases left <;> cases right <;> simp [key] at equal ⊢
  exact sameCharacters _ _ equal

end Path

end LintRepair
