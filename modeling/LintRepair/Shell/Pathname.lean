/-
This file finds the paths that a pattern matches.
-/

import LintRepair.Shell.Pattern
import LintRepair.Shell.System

namespace LintRepair.Shell.Pathname

/-- The names in the directory that a path leads to. -/
def names (tree : FileTree) (directory : Location) (path : Octets) : List Octets :=
  match tree.resolveFrom directory (if path.isEmpty then ⟨"."⟩ else pathOf path) with
  | .ok location =>
    if kind? tree location = some .directory then
      let inner := tree.entries.filterMap fun (entry, _) =>
        match entry.reverse with
        | name :: around => if around.reverse = location then some (octetsOf name) else none
        | [] => none
      ['.'] :: ['.', '.'] :: inner
    else []
  | .error _ => []

def isThere (tree : FileTree) (directory : Location) (path : Octets) : Bool :=
  (tree.resolveFrom directory (pathOf path)).isOk

/-- A part of a path without a meaning names itself. -/
def plainText : Pattern → Octets
  | [] => []
  | [glyph] => [glyph.octet]
  | glyph :: next :: rest =>
    if Pattern.isPlain '\\' glyph then next.octet :: plainText rest
    else glyph.octet :: plainText (next :: rest)

/-- A pattern for names that begin with a dot says so. -/
def asksDot : Pattern → Bool
  | ⟨'\\', false⟩ :: glyph :: _ => glyph.octet = '.'
  | glyph :: _ => glyph.octet = '.'
  | [] => false

/-- The paths that begin with a text and go on with parts. -/
def expandParts (tree : FileTree) (directory : Location) :
    Octets → Bool → List Pattern → List Octets
  | _, _, [] => []
  | before, isMatched, part :: parts =>
    let isLast := parts.isEmpty
    if part.hasMeaning then
      let matched := (names tree directory before).filter fun name =>
        (name.head? != some '.' || asksDot part) && part.isMatch name
      matched.flatMap fun name =>
        if isLast then [before ++ name]
        else expandParts tree directory (before ++ name ++ ['/']) true parts
    else
      let path := before ++ plainText part
      if isLast then if isMatched && isThere tree directory path then [path] else []
      else expandParts tree directory (path ++ ['/']) isMatched parts

/-- The order of texts by their bytes. -/
def isBefore : Octets → Octets → Bool
  | [], _ => true
  | _, [] => false
  | left :: lefts, right :: rights =>
    left.toNat < right.toNat || (left = right && isBefore lefts rights)

def separateParts : Pattern → List Pattern
  | [] => [[]]
  | glyph :: glyphs =>
    if glyph.octet = '/' then [] :: separateParts glyphs
    else
      match separateParts glyphs with
      | [] => [[glyph]]
      | part :: parts => (glyph :: part) :: parts

/-- All paths that a pattern matches, in order. There are none if no part of it has a meaning. -/
def expand (tree : FileTree) (directory : Location) (pattern : Pattern) : List Octets :=
  let parts := separateParts pattern
  if parts.any Pattern.hasMeaning then
    (expandParts tree directory [] false parts).mergeSort isBefore
  else []

end LintRepair.Shell.Pathname
