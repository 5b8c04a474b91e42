/-
  TypedStore/Archive/Basic.lean
  =============================
  **A medium that is a directory of files.**

  An archive is open on the files of a store. It holds the entries in memory, together with the
  bytes of the current data file as they were last written or found. An operation that changes
  the entries changes them in memory and commits what is there then; if that fails, it takes its
  change back, each in its own way. Keys and values have to be text, and values JSON, since the
  data file is an object of them.
-/
import TypedStore.Archive.Commit

namespace TypedStore

structure ArchiveOptions where
  /-- What is made of a data file. -/
  mode : LoadMode := .optional
  /-- How many generations are kept, with the current one. -/
  keep : Nat := 3
deriving DecidableEq, Repr

structure Archive where
  files : FileSet
  keep : Nat
  entries : Json.RawObject
  committed : Option Bytes
deriving DecidableEq

/-- An archive and the disk that its files are on. -/
structure Mounted where
  disk : Disk
  archive : Archive
deriving DecidableEq

namespace Archive

/-- Open the files of a store. The directory is made if it is missing; nothing else is written. -/
def load (files : FileSet) (options : ArchiveOptions) : Op StorageFault Disk Archive := do
  if options.keep = 0 then throw .noGenerations
  (Op.step fun disk => disk.makeDirectories files.dir).mapError StorageFault.disk
  let committed ← Op.look (FileSet.readIfPresent (files.data 0))
  let entries ← match options.mode, committed with
    | .ignored, _ | .optional, none => pure SortedMap.empty
    | .required, none => throw (.dataMissing (files.data 0))
    | _, some bytes => Op.look (FileSet.parseVerified bytes (files.data 0) (files.checksum 0))
  Op.report (.openedFiles (files.data 0) files.id entries.size options.mode options.keep)
  return { files, keep := options.keep, entries, committed }

/-! ### Text -/

def keyText (key : Bytes) : Op StorageFault Mounted String :=
  Op.ofExcept ((Utf8.decode key).mapError .keyNotText)

def valueText (value : Bytes) : Op StorageFault Mounted Json.RawText :=
  Op.ofExcept do
    let text ← (Utf8.decode value).mapError StorageFault.valueNotText
    (Json.RawText.ofChars? text.toList).elim (.error .notJson) .ok

/-! ### The entries in memory -/

def current : Op StorageFault Mounted Json.RawObject := do
  return (← Op.state).archive.entries

def edit (f : Json.RawObject → Json.RawObject) : Op StorageFault Mounted Unit :=
  Op.change fun s => .ok { s with archive := { s.archive with entries := f s.archive.entries } }

/-- Give a key back what was under it, if anything was. -/
def reinstate (key : String) : Option Json.RawText → Op StorageFault Mounted Unit
  | some old => edit (·.insert key old)
  | none => edit (·.erase key)

/-- Commit the entries as they are in memory. -/
def flush : Op StorageFault Mounted Unit := do
  let archive := (← Op.state).archive
  let bytes := Json.RawObject.toBytes archive.entries
  (archive.files.commit archive.keep archive.committed bytes).within
    Mounted.disk (fun s disk => { s with disk := disk })
  Op.setState { (← Op.state) with archive := { archive with committed := some bytes } }

/-! ### Operations -/

def medium : Medium Mounted where
  persist key value := do
    let key ← keyText key
    let value ← valueText value
    let previous := (← current).get? key
    edit (·.insert key value)
    match ← flush.attempt with
    | .ok () => return ()
    | .error fault =>
      reinstate key previous
      throw fault
  retrieve key := do
    let key ← keyText key
    return ((← current).get? key).map (·.bytes)
  remove key := do
    let key ← keyText key
    match (← current).get? key with
    | none => return false
    | some old =>
      edit (·.erase key)
      match ← flush.attempt with
      | .ok () => return true
      | .error fault =>
        edit (·.insert key old)
        throw fault
  keys := do return (← current).keys.map Utf8.encode
  contains key := do
    let key ← keyText key
    return (← current).contains key
  clear := do
    let cleared ← current
    if cleared.isEmpty then return 0
    else
      edit fun _ => .empty
      match ← flush.attempt with
      | .ok () => return cleared.size
      | .error fault =>
        edit fun _ => cleared
        throw fault

/-- How many generations are on disk, with the current one. -/
def generations (s : Mounted) : Nat :=
  s.archive.files.countFrom s.disk 0 s.archive.keep

/-- Make an earlier generation the current one; the present one becomes generation one. -/
def restore (generation : Nat) : Op StorageFault Mounted Unit := do
  let files := (← Op.state).archive.files
  let bytes ← Op.look fun s => (s.disk.read (files.data generation)).mapError .disk
  let restored ← Op.look fun s =>
    FileSet.parseVerified bytes (files.data generation) (files.checksum generation) s.disk
  let previous ← current
  edit fun _ => restored
  match ← flush.attempt with
  | .ok () => Op.report (.restored generation (← current).size)
  | .error fault =>
    edit fun _ => previous
    throw fault

end Archive

end TypedStore
