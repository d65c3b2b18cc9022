/-
This file runs a command line on a small system and collects its output. It is one way to launch the
lint command; no repair depends on it.
-/

import LintRepair.Repair.LintCommand
import LintRepair.Shell.Run

namespace LintRepair

namespace Shell

/-- The variables that every command line is given. -/
def givenVariables : List (Octets × Octets) :=
  [("HOME", "/root"), ("PATH", "/usr/local/sbin:/usr/local/bin:/usr/sbin:/usr/bin:/sbin:/bin")].map
    fun (name, value) => (name.toList, value.toList)

/-- A process without input. Its output and its errors go into pipes. What the system began with is
older than all files. -/
def State.initial (files : FileTree) : State where
  files := files
  ages := ([] :: directoryLocations).map (·, -1)
  directory := files.workingDirectory
  openFiles :=
    #[{ target := .null, isReadable := true }, { target := .pipe 0, isWritable := true },
      { target := .pipe 1, isWritable := true }]
  pipes := #[[], []]
  descriptors := [(0, 0), (1, 1), (2, 2)]
  assigned := givenVariables.map fun (name, value) =>
    (name, { value := some value, isExported := true })

/-- The program that a name stands for. A name without a slash is looked for where programs are. -/
def startable (files : FileTree) (name : String) : Except FileError Location :=
  let path : Path := ⟨name⟩
  let isPath := name.toList.contains '/'
  if isPath then
    match files.resolve path with
    | .ok location =>
      if kind? files location = some .program then .ok location else .error .permissionDenied
    | .error error => .error error
  else if programNames.contains name then .ok ["usr", "bin", name]
  else if name = "." || name = ".." then .error .permissionDenied
  else if FileTree.nameLimit < name.utf8ByteSize then .error .nameTooLong
  else .error .notFound

/-- The output of a command line, which may change files. -/
def launch : Launch := fun command files =>
  let words := command.program :: command.arguments
  if words.any fun word => word.toList.contains '\x00' then (.error .nulInCommand, files)
  else
    match startable files command.program with
    | .error error => (.error error, files)
    | .ok location =>
      let action := replace run location (octetsOf command.program)
        (command.arguments.map octetsOf)
      let (_, state) := action.run (State.initial files)
      (.ok (bytesOf ((state.pipes[0]?).getD [])), state.files)

end Shell

end LintRepair
