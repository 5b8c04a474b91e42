/-
  TypedStore/Archive/Commit.lean
  ==============================
  **Writing a new current generation.**

  A commit writes the new data and its checksum to temporary files, moves the older generations up
  by one with the last committed data as generation one, and then renames the data file and the
  checksum file into place, in this order. A step that fails ends the commit: the temporary files
  are removed, and if the data file had been replaced already, the last committed one is put back.
  Only the temporary files and the data file are looked after in this way; what the moving of
  older generations has done stays.
-/
import TypedStore.Archive.FileSet

namespace TypedStore.FileSet

/-! ### Single files -/

def writeFile (path : Path) (bytes : Bytes) : Op StorageFault Disk Unit :=
  Op.change fun disk => (disk.write path bytes).mapError .disk

def moveFile (source target : Path) : Op StorageFault Disk Unit :=
  Op.change fun disk => (disk.rename source target).mapError .disk

/-- Remove a temporary file. That it is not there is no failure; any other failure is only
    reported. -/
def discard (path : Path) : Op StorageFault Disk Unit := do
  let result : Except DiskFault Unit ← (Op.change fun disk => disk.remove path).attempt
  match result with
  | .ok () | .error .notFound => pure ()
  | .error fault => Op.report (.notDiscarded path fault.message)

def writeTemporary (path : Path) (bytes : Bytes) : Op StorageFault Disk Unit := do
  match ← (writeFile (temporary path) bytes).attempt with
  | .ok () => pure ()
  | .error fault =>
    discard (temporary path)
    throw fault

/-- Rename the temporary file of a file into place. -/
def settle (path : Path) : Op StorageFault Disk Unit := do
  match ← (moveFile (temporary path) path).attempt with
  | .ok () => pure ()
  | .error fault =>
    discard (temporary path)
    throw fault

/-- Write a file so that it is either the old or the new one at any time. -/
def writeAtomic (path : Path) (bytes : Bytes) : Op StorageFault Disk Unit := do
  writeTemporary path bytes
  settle path

/-! ### Older generations -/

def moveIfPresent (source target : Path) : Op StorageFault Disk Unit := do
  if (← Op.state).contains source then moveFile source target

/-- Move generations up by one: the given one first, then those below it down to generation one. -/
def moveUpFrom (files : FileSet) : Nat → Op StorageFault Disk Unit
  | 0 => pure ()
  | generation + 1 => do
    moveIfPresent (files.data (generation + 1)) (files.data (generation + 2))
    moveIfPresent (files.checksum (generation + 1)) (files.checksum (generation + 2))
    moveUpFrom files generation

/-- Make the last committed data generation one, if there is any and older generations are
    kept. -/
def rotate (files : FileSet) (keep : Nat) (committed : Option Bytes) :
    Op StorageFault Disk Unit :=
  match committed with
  | none => pure ()
  | some previous => do
    if 2 ≤ keep then
      moveUpFrom files (keep - 2)
      writeAtomic (files.data 1) previous
      writeAtomic (files.checksum 1) (Checksum.fileFor previous)

/-! ### The commit -/

/-- Put the last committed data file back, or remove the data file if there was none. -/
def putBack (files : FileSet) (committed : Option Bytes) : Op StorageFault Disk Unit := do
  let result ← match committed with
    | some previous => (writeAtomic (files.data 0) previous).attempt
    | none =>
      (Op.change fun disk => (disk.remove (files.data 0)).mapError StorageFault.disk).attempt
  match result with
  | .ok () => pure ()
  | .error fault => Op.report (.notPutBack (files.data 0) fault.message)

def stage (files : FileSet) (bytes : Bytes) : Op StorageFault Disk Unit := do
  writeTemporary (files.data 0) bytes
  match ← (writeTemporary (files.checksum 0) (Checksum.fileFor bytes)).attempt with
  | .ok () => pure ()
  | .error fault =>
    discard (temporary (files.data 0))
    throw fault

/-- Move older generations up and the new data file into place. -/
def install (files : FileSet) (keep : Nat) (committed : Option Bytes) :
    Op StorageFault Disk Unit := do
  let moved : Op StorageFault Disk Unit := do
    rotate files keep committed
    moveFile (temporary (files.data 0)) (files.data 0)
  match ← moved.attempt with
  | .ok () => pure ()
  | .error fault =>
    discard (temporary (files.data 0))
    discard (temporary (files.checksum 0))
    throw fault

/-- Move the new checksum file into place, or take the new data file back. -/
def finish (files : FileSet) (committed : Option Bytes) : Op StorageFault Disk Unit := do
  match ← (moveFile (temporary (files.checksum 0)) (files.checksum 0)).attempt with
  | .ok () => pure ()
  | .error fault =>
    discard (temporary (files.checksum 0))
    putBack files committed
    throw fault

/-- Make some bytes the current data file, where `committed` are the bytes of the present one and
    `keep` generations are kept. -/
def commit (files : FileSet) (keep : Nat) (committed : Option Bytes) (bytes : Bytes) :
    Op StorageFault Disk Unit := do
  stage files bytes
  install files keep committed
  finish files committed
  Op.report (.wroteData (files.data 0) bytes.length)

end TypedStore.FileSet
