/-
  TypedStore/Archive/FileSet.lean
  ===============================
  **The files of a store, and what makes a pair of them sound.**

  Stores that share a directory are told apart by a number, which is part of the name of each of
  their files. A store has a data file and a checksum file for every generation, of which
  generation zero is the current one, and may have a defaults file with a checksum. A new version
  of a file is first written beside it, under its temporary name.

  A data file counts only with its checksum: `verify` demands a checksum file of four bytes that
  are the checksum of the data.
-/
import TypedStore.Json.Raw
import TypedStore.Medium.Basic

namespace TypedStore

structure FileSet where
  dir : Path
  id : Nat
deriving DecidableEq, Repr

namespace FileSet

def file (files : FileSet) (ending : String) : Path :=
  files.dir.child ("kvs_" ++ files.id.repr ++ "_" ++ ending)

def data (files : FileSet) (generation : Nat) : Path := files.file (generation.repr ++ ".json")

def checksum (files : FileSet) (generation : Nat) : Path :=
  files.file (generation.repr ++ ".hash")

def defaults (files : FileSet) : Path := files.file "default.json"

def defaultsChecksum (files : FileSet) : Path := files.file "default.hash"

def temporary (path : Path) : Path := path.suffixed ".tmp"

/-! ### Reading -/

def readIfPresent (path : Path) (disk : Disk) : Except StorageFault (Option Bytes) :=
  match disk.read path with
  | .ok bytes => .ok (some bytes)
  | .error .notFound => .ok none
  | .error fault => .error (.disk fault)

/-- Whether a checksum file holds the checksum of some data; the path of the data is for error
    messages. -/
def verify (bytes : Bytes) (data checksum : Path) (disk : Disk) : Except StorageFault Unit :=
  match disk.read checksum with
  | .error .notFound => .error (.checksumMissing checksum)
  | .error fault => .error (.disk fault)
  | .ok sum =>
    match Checksum.ofBigEndian? sum with
    | none => .error (.checksumLength checksum sum.length)
    | some stored =>
      if stored = Checksum.crc32 bytes then .ok ()
      else .error (.checksumMismatch data stored (Checksum.crc32 bytes))

def parse (bytes : Bytes) : Except StorageFault Json.RawObject :=
  (Json.RawObject.ofBytes? bytes).elim (.error .notJson) .ok

/-- The entries that some data writes, provided its checksum is right. -/
def parseVerified (bytes : Bytes) (data checksum : Path) (disk : Disk) :
    Except StorageFault Json.RawObject :=
  (verify bytes data checksum disk).bind fun _ => parse bytes

/-- The entries of the defaults file, if there is one. A checksum file beside it is optional, but
    has to be right. -/
def readDefaults (files : FileSet) : Op StorageFault Disk (Option Json.RawObject) := do
  match ← Op.look (readIfPresent files.defaults) with
  | none => return none
  | some bytes =>
    if (← Op.state).contains files.defaultsChecksum then
      Op.look (verify bytes files.defaults files.defaultsChecksum)
    let entries ← Op.ofExcept (parse bytes)
    Op.report (.readDefaults files.defaults entries.size)
    return some entries

/-! ### Generations -/

/-- How many generations there are from `generation` on without a gap, at most `bound`. -/
def countFrom (files : FileSet) (disk : Disk) (generation : Nat) : Nat → Nat
  | 0 => 0
  | bound + 1 =>
    if disk.contains (files.data generation) then
      countFrom files disk (generation + 1) bound + 1
    else 0

theorem ofBigEndian?_fileFor (bytes : Bytes) :
    Checksum.ofBigEndian? (Checksum.fileFor bytes) = some (Checksum.crc32 bytes) :=
  Checksum.ofBigEndian?_bigEndian _

end FileSet

end TypedStore
