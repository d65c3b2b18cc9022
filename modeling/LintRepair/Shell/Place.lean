/-
This file finds and opens what the paths of a script name.
-/

import LintRepair.Shell.State

namespace LintRepair.Shell

/-- The descriptor that a device stands for. -/
def descriptorOf? : Location → Option Nat
  | ["dev", "stdin"] => some 0
  | ["dev", "stdout"] => some 1
  | ["dev", "stderr"] => some 2
  | ["dev", "fd", name] =>
    let place := descriptorNames.idxOf name
    if place < descriptorNames.length then some place else none
  | _ => none

namespace Step

/-- What is at a location. A device that stands for a descriptor is what the descriptor leads to. -/
def targetAt (location : Location) : Step (Except FileError Target) := do
  match descriptorOf? location with
  | some descriptor =>
    match ← openFile? descriptor with
    | some (_, file) => return .ok file.target
    | none => return .error .notFound
  | none =>
    match kind? (← get).files location with
    | some .file => return .ok (.file location)
    | some .directory => return .ok (.directory location)
    | some .device => return .ok .null
    | some .program => return .ok (.program location)
    | none => return .error .notFound

/-- What a path names. -/
def target (path : Octets) : Step (Except FileError Target) := do
  let state ← get
  match state.files.resolveFrom state.directory (pathOf path) with
  | .ok location => targetAt location
  | .error error => return .error error

/-- The target of a path that is there or is made empty. -/
def createdTarget (path : Octets) : Step (Except FileError Target) := do
  let state ← get
  match placeOf state.files state.directory (pathOf path) with
  | .error error => return .error error
  | .ok location =>
    match ← targetAt location with
    | .ok found => return .ok found
    | .error _ =>
      set (state.putFile location [])
      return .ok (.file location)

/-- The age of a target. Devices and programs are older than all files. -/
def age (target : Target) : Step Int := do
  match target with
  | .file location | .directory location => return ((← get).ages.lookup location).getD 0
  | _ => return -1

def setAge (target : Target) (age : Int) : Step Unit :=
  match target with
  | .file location | .directory location => modify fun state => state.setAge location age
  | _ => return

/-- A file becomes empty. -/
def truncate (target : Target) : Step Unit :=
  match target with
  | .file location =>
    modify fun state => state.putFile location []
  | _ => return

/-- The number of a new open file for reading a path. -/
def openInput (path : Octets) : Step (Except FileError Nat) := do
  match ← target path with
  | .error error => return .error error
  | .ok target => return .ok (← addFile { target, isReadable := true })

/-- The number of a new open file for writing a path. -/
def openOutput (kind : RedirectionKind) (path : Octets) : Step (Except FileError Nat) := do
  match ← createdTarget path with
  | .error error => return .error error
  | .ok (.directory _) => return .error .isDirectory
  | .ok (.program _) => return .error .permissionDenied
  | .ok target =>
    if kind = .output || kind = .clobber then truncate target
    let isReadable := kind = .inputOutput
    return .ok (← addFile { target, isReadable, isWritable := true, appends := kind = .append })

end Step

end LintRepair.Shell
