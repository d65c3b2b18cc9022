/-
This file holds the directories, devices and programs of a small system.
-/

import LintRepair.FileTree.Resolution

namespace LintRepair.Shell

/-- Devices. All but the first stand for descriptors of a process. -/
def deviceNames : List String :=
  ["null", "stdin", "stdout", "stderr"]

/-- The names of the descriptors that a script can open. -/
def descriptorNames : List String :=
  ["0", "1", "2", "3", "4", "5", "6", "7", "8", "9"]

def programNames : List String :=
  ["sh", "cat", "echo", "printf", "touch", "test", "[", "true", "false", "kill"]

def directoryLocations : List Location :=
  [["bin"], ["dev"], ["dev", "fd"], ["etc"], ["root"], ["tmp"], ["usr"], ["usr", "bin"], ["var"]]

/-- The bytes of a program are no text. -/
def programContent : List UInt8 :=
  [0x7F, 0x45, 0x4C, 0x46, 0x80]

def systemEntries : List (Location × Entry) :=
  directoryLocations.map (·, .directory) ++
    deviceNames.map (["dev", ·], .device) ++
    descriptorNames.map (["dev", "fd", ·], .device) ++
    programNames.flatMap fun name =>
      [["bin", name], ["usr", "bin", name]].map (·, .file programContent)

def isProgram (location : Location) : Bool :=
  match location with
  | ["bin", name] | ["usr", "bin", name] => programNames.contains name
  | _ => false

inductive Kind where
  | directory
  | file
  | device
  | program
deriving Repr, DecidableEq

/-- What is at a location, if anything is. -/
def kind? (tree : FileTree) (location : Location) : Option Kind :=
  (tree.entryAt? location).map fun
    | .directory => .directory
    | .device => .device
    | .file _ _ | .link _ => if isProgram location then .program else .file

/-- The path of a directory from the root. -/
def pathText (location : Location) : String :=
  "/" ++ "/".intercalate location

/-- The location at which a path names a file that is there or may be made. -/
def placeOf (tree : FileTree) (directory : Location) (path : Path) : Except FileError Location :=
  match tree.resolveFrom directory path with
  | .ok location =>
    if kind? tree location = some .directory then .error .isDirectory else .ok location
  | .error error =>
    let parts := path.parts.reverse
    match parts.dropWhile List.isEmpty with
    | [] => .error error
    | last :: around =>
      if FileTree.pathLimit < path.spelling.utf8ByteSize || error = .nulInPath then .error error
      else do
        let outer ← tree.resolveFrom directory (directoryPath around.reverse)
        if parts.head? = some [] then .error .isDirectory
        else
          match Path.component? last with
          | some (.name name) =>
            if FileTree.isLong name then .error .nameTooLong
            else .ok (outer ++ [String.ofList name])
          | _ => .error error
where
  directoryPath (parts : List (List Char)) : Path :=
    match parts with
    | [] => ⟨"."⟩
    | _ => ⟨String.ofList (['/'].intercalate parts) ++ "/"⟩

end LintRepair.Shell
