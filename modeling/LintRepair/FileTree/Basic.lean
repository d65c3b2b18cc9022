/-
This file holds the files and directories of a system.
-/

import LintRepair.Path

namespace LintRepair

/-- Why a file cannot be read or written, or a program cannot be started. -/
inductive FileError where
  | notFound
  | permissionDenied
  | notDirectory
  | isDirectory
  | noSpace
  | readOnlySystem
  | nameTooLong
  | tooManyLinks
  | nulInPath
  | nulInCommand
  | malformedText
  | other (wording : String)
deriving Repr, DecidableEq

/-- The wording of the operating system, with its error numbers. -/
def FileError.message : FileError → String
  | notFound => "No such file or directory (os error 2)"
  | permissionDenied => "Permission denied (os error 13)"
  | notDirectory => "Not a directory (os error 20)"
  | isDirectory => "Is a directory (os error 21)"
  | noSpace => "No space left on device (os error 28)"
  | readOnlySystem => "Read-only file system (os error 30)"
  | nameTooLong => "File name too long (os error 36)"
  | tooManyLinks => "Too many levels of symbolic links (os error 40)"
  | nulInPath => "file name contained an unexpected NUL byte"
  | nulInCommand => "nul byte found in provided data"
  | malformedText => "stream did not contain valid UTF-8"
  | other wording => wording

/-- The names that lead from the root to a file. -/
abbrev Location := List String

/-- Whether a file takes new bytes. A file that cannot be opened keeps what it has. A file that is too
small for them is left with as many as it has room for. -/
inductive Writing where
  | allowed
  | refused (error : FileError)
  | limited (room : Nat) (error : FileError)
deriving Repr, DecidableEq

/-- What a program may do with a file. -/
structure Access where
  reading : Option FileError := none
  writing : Writing := .allowed
deriving Repr, DecidableEq

/-- A device is always empty and forgets what is written to it. A link stands for another path. -/
inductive Entry where
  | file (content : List UInt8) (access : Access := {})
  | directory
  | device
  | link (target : Path)
deriving Repr, DecidableEq

/-- Every file and every directory but the root, each at one location, and the directory at which
relative paths begin. -/
structure FileTree where
  entries : List (Location × Entry)
  workingDirectory : Location
deriving DecidableEq

namespace FileTree

def entryAt? (tree : FileTree) (location : Location) : Option Entry :=
  if location = [] then some .directory else tree.entries.lookup location

/-- The tree with another entry at a location. -/
def put (tree : FileTree) (location : Location) (entry : Entry) : FileTree :=
  { tree with
    entries :=
      if (tree.entries.lookup location).isSome then
        tree.entries.map fun old => if old.1 = location then (location, entry) else old
      else tree.entries ++ [(location, entry)] }

end FileTree

end LintRepair
