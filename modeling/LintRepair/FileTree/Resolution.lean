/-
This file finds what a path names, and reads and writes it.
-/

import LintRepair.FileTree.Basic

namespace LintRepair

namespace FileTree

/-- The longest name of a file and the longest path, in bytes, and how many links a path may pass. -/
def nameLimit : Nat := 255
def pathLimit : Nat := 4095
def linkLimit : Nat := 40

def isLong (name : List Char) : Bool :=
  nameLimit < (String.ofList name).utf8ByteSize

/-- A path with a slash at its start begins at the root. -/
def startOf (path : Path) (directory : Location) : Location :=
  if path.components.head? = some .root then [] else directory

/-- Where one part of a path leads. -/
inductive Lead where
  | place (location : Location)
  | link (target : Path)

/-- What is at a location may be a link. -/
def enter (tree : FileTree) (location : Location) : Except FileError Lead :=
  match tree.entryAt? location with
  | none => .error .notFound
  | some (.link target) => .ok (.link target)
  | some _ => .ok (.place location)

/-- One part of a path leads on from a directory. An empty part and a single dot stay there, and above
the root is the root. -/
def lead (tree : FileTree) (location : Location) (part : List Char) : Except FileError Lead :=
  match tree.entryAt? location with
  | some .directory =>
    match Path.component? part with
    | some (.name text) =>
      if isLong text then .error .nameTooLong else tree.enter (location ++ [String.ofList text])
    | some .parent => .ok (.place location.dropLast)
    | _ => .ok (.place location)
  | some _ => .error .notDirectory
  | none => .error .notFound

/-- The parts of a path are followed one by one. At a link those of its target come first. -/
def follow (tree : FileTree) (through : Location → List (List Char) → Except FileError Location) :
    Location → List (List Char) → Except FileError Location
  | location, [] => .ok location
  | location, part :: parts =>
    match tree.lead location part with
    | .error error => .error error
    | .ok (.place next) => tree.follow through next parts
    | .ok (.link target) => through (startOf target location) (target.parts ++ parts)

/-- Where some parts lead when they pass no more than a number of links. -/
def walk (tree : FileTree) : Nat → Location → List (List Char) → Except FileError Location
  | 0 => tree.follow fun _ _ => .error .tooManyLinks
  | links + 1 => tree.follow (tree.walk links)

/-- Where a path leads from a directory. -/
def resolveFrom (tree : FileTree) (directory : Location) (path : Path) :
    Except FileError Location :=
  if path.spelling.toList.contains '\x00' then .error .nulInPath
  else if path.spelling.isEmpty then .error .notFound
  else if pathLimit < path.spelling.utf8ByteSize then .error .nameTooLong
  else tree.walk linkLimit (startOf path directory) path.parts

/-- Where a path leads from the working directory. -/
def resolve (tree : FileTree) (path : Path) : Except FileError Location :=
  tree.resolveFrom tree.workingDirectory path

/-- Whether a path leads to anything. -/
def pathExists (tree : FileTree) (path : Path) : Bool :=
  (tree.resolve path).isOk

/-- The content of what is at a location. -/
def contentAt (tree : FileTree) (location : Location) : Except FileError (List UInt8) :=
  match tree.entryAt? location with
  | some (.file content access) =>
    match access.reading with
    | none => .ok content
    | some error => .error error
  | some .device => .ok []
  | some .directory => .error .isDirectory
  | _ => .error .notFound

/-- The location and the text of the file that a path names. -/
def readText (tree : FileTree) (path : Path) : Except FileError (Location × String) := do
  let location ← tree.resolve path
  let content ← tree.contentAt location
  match String.fromUTF8? ⟨content.toArray⟩ with
  | some text => return (location, text)
  | none => .error .malformedText

/-- The tree with other bytes in a file that is there. -/
def putContent (tree : FileTree) (location : Location) (content : List UInt8) : FileTree :=
  match tree.entryAt? location with
  | some (.file _ access) => tree.put location (.file content access)
  | _ => tree

/-- Why bytes cannot be written to what is at a location, if they cannot. -/
def writeError? (tree : FileTree) (location : Location) (content : List UInt8) :
    Option FileError :=
  match tree.entryAt? location with
  | some (.file _ access) =>
    match access.writing with
    | .allowed => none
    | .refused error => some error
    | .limited room error => if content.length ≤ room then none else some error
  | some .device => none
  | some .directory => some .isDirectory
  | _ => some .notFound

/-- The tree after bytes were written to what is at a location, as far as they could be. -/
def write (tree : FileTree) (location : Location) (content : List UInt8) : FileTree :=
  match tree.entryAt? location with
  | some (.file _ access) =>
    match access.writing with
    | .allowed => tree.putContent location content
    | .refused _ => tree
    | .limited room _ => tree.putContent location (content.take room)
  | _ => tree

end FileTree

end LintRepair
