/-
  TypedStore/Disk/Basic.lean
  ==========================
  **Directory trees, and the operations on them that can fail.**

  A disk maps places to files and directories. A place is the list of the names that lead to it
  from the root. Operations are given paths, which they follow part by part: every part but the
  last has to lead to a directory, `.` and an empty part stay where they are, and `..` goes up.

  Every operation but `makeDirectories` either takes effect or fails and leaves the disk as it
  was, so it is a function from a disk to a disk or a fault. The faults are those of an ordinary
  file system: something is missing, a directory stands where a file is wanted, a file stands on
  the way, a directory is not empty, a name is too long or cannot be one.

  Places are ordered by their names, a directory before what is in it, so the entries of a disk
  are listed depth first (`Disk.below`).
-/
import TypedStore.Bytes.Utf8
import TypedStore.Disk.Path
import TypedStore.SortedMap

namespace TypedStore

/-- The names from the root to a file or directory. -/
abbrev Place := List String

inductive Entry where
  | file (bytes : Bytes)
  | directory
deriving DecidableEq, Repr

inductive DiskFault where
  | notFound
  | isDirectory
  | notDirectory
  | notEmpty
  /-- Something is there already. -/
  | occupied
  /-- A directory cannot be moved into itself. -/
  | insideItself
  /-- A name, or the whole path, is longer than names and paths can be. -/
  | tooLong
  /-- The null character, which no path can contain. -/
  | nullInPath
  /-- The operation makes no sense for what is written. -/
  | invalid
deriving DecidableEq, Repr

/-- The description of a fault. The wording is the operating system's, for which a placeholder
    stands, except where a path is not even passed on to it. -/
def DiskFault.message : DiskFault → String
  | .nullInPath => "file name contained an unexpected NUL byte"
  | _ => "<os>"

/-- The files and directories below the root, which is a directory itself. -/
structure Disk where
  entries : SortedMap Place Entry
deriving DecidableEq

namespace Disk

def empty : Disk := ⟨.empty⟩

instance : Inhabited Disk := ⟨empty⟩

/-! ### Places -/

def lookup? (disk : Disk) (place : Place) : Option Entry :=
  if place = [] then some .directory else disk.entries.get? place

/-- The entries below a place, depth first and the names within a directory ascending. -/
def below (disk : Disk) (place : Place) : List (Place × Entry) :=
  disk.entries.toList.filter fun e => place <+: e.1 ∧ place ≠ e.1

def set (disk : Disk) (place : Place) (entry : Entry) : Disk :=
  ⟨disk.entries.insert place entry⟩

def unset (disk : Disk) (place : Place) : Disk := ⟨disk.entries.erase place⟩

/-! ### Paths -/

/-- The place that one part of a path leads to from another place. -/
def follow (disk : Disk) (place : Place) (part : String) : Except DiskFault Place :=
  match disk.lookup? place with
  | none => .error .notFound
  | some (.file _) => .error .notDirectory
  | some .directory =>
    if part = "" ∨ part = "." then .ok place
    else if part = ".." then .ok place.dropLast
    else if Path.maxNameBytes < part.utf8ByteSize then .error .tooLong
    else .ok (place ++ [part])

/-- Whether a path is taken at all, wherever it leads. -/
def checkPath (path : Path) : Except DiskFault Unit :=
  if path.any ('\x00' ∈ ·.toList) then .error .nullInPath
  else if Path.maxBytes < path.text.utf8ByteSize then .error .tooLong
  else .ok ()

/-- The place that a path leads to; there need not be anything. -/
def locate (disk : Disk) (path : Path) : Except DiskFault Place := do
  checkPath path
  path.foldlM disk.follow []

def find (disk : Disk) (path : Path) : Except DiskFault (Option Entry) :=
  (disk.locate path).map disk.lookup?

def contains (disk : Disk) (path : Path) : Bool :=
  match disk.find path with
  | .ok (some _) => true
  | _ => false

def isDirectory (disk : Disk) (path : Path) : Bool :=
  match disk.find path with
  | .ok (some .directory) => true
  | _ => false

/-! ### Files -/

def read (disk : Disk) (path : Path) : Except DiskFault Bytes := do
  match ← disk.find path with
  | none => throw .notFound
  | some .directory => throw .isDirectory
  | some (.file bytes) => return bytes

/-- Write a file, new or in place of another file. -/
def write (disk : Disk) (path : Path) (bytes : Bytes) : Except DiskFault Disk := do
  let place ← disk.locate path
  match disk.lookup? place with
  | some .directory => throw .isDirectory
  | _ => return disk.set place (.file bytes)

def remove (disk : Disk) (path : Path) : Except DiskFault Disk := do
  let place ← disk.locate path
  match disk.lookup? place with
  | none => throw .notFound
  | some .directory => throw .isDirectory
  | some (.file _) => return disk.unset place

/-! ### Directories -/

def removeDirectory (disk : Disk) (path : Path) : Except DiskFault Disk := do
  checkPath path
  let path := path.withoutSlash
  let place ← disk.locate path
  match disk.lookup? place with
  | none => throw .notFound
  | some (.file _) => throw .notDirectory
  | some .directory =>
    if place = [] ∨ path.getLast? = some "." then throw .invalid
    else if disk.below place = [] then return disk.unset place
    else throw .notEmpty

def makeDirectory (disk : Disk) (path : Path) : Except DiskFault Disk := do
  checkPath path
  let place ← disk.locate path.withoutSlash
  match disk.lookup? place with
  | none => return disk.set place .directory
  | some _ => throw .occupied

def ensureDirectory (disk : Disk) (path : Path) : Except DiskFault Unit × Disk :=
  match disk.makeDirectory path with
  | .ok disk => (.ok (), disk)
  | .error fault => (if disk.isDirectory path then .ok () else .error fault, disk)

/-- Make the first of some directories, and before it the others if it cannot be made for want of
    them. -/
def makeFirst (disk : Disk) : List Path → Except DiskFault Unit × Disk
  | [] => (.ok (), disk)
  | path :: above =>
    match disk.makeDirectory path with
    | .error .notFound =>
      match disk.makeFirst above with
      | (.ok (), disk) => disk.ensureDirectory path
      | failed => failed
    | _ => disk.ensureDirectory path

/-- Make a directory and those above it that are missing. What has been made before a failure
    stays. -/
def makeDirectories (disk : Disk) (path : Path) : Except DiskFault Unit × Disk :=
  disk.makeFirst (path :: path.above)

/-! ### Moving -/

/-- The place after its front has been exchanged, if it has that front. -/
def rebase (source target place : Place) : Place :=
  if source <+: place then target ++ place.drop source.length else place

def moveTree (disk : Disk) (source target : Place) : Disk :=
  ⟨.ofList (disk.entries.toList.map fun e => (rebase source target e.1, e.2))⟩

/-- Give a file or directory another path. A file takes the place of a file, and a directory that
    of an empty directory. -/
def rename (disk : Disk) (source target : Path) : Except DiskFault Disk := do
  let source ← disk.locate source
  let target ← disk.locate target
  match disk.lookup? source, disk.lookup? target with
  | none, _ => throw .notFound
  | some (.file _), some .directory => throw .isDirectory
  | some (.file bytes), _ => return (disk.unset source).set target (.file bytes)
  | some .directory, some (.file _) => throw .notDirectory
  | some .directory, old =>
    if source = target then return disk
    else if source <+: target then throw .insideItself
    else if old.isSome ∧ disk.below target ≠ [] then throw .notEmpty
    else return (disk.unset target).moveTree source target

/-! ### Looking after changing -/

theorem lookup?_set (disk : Disk) (place other : Place) (entry : Entry) (h : other ≠ []) :
    (disk.set place entry).lookup? other =
      if other = place then some entry else disk.lookup? other := by
  simp [lookup?, h, set, SortedMap.get?_insert]

theorem lookup?_unset (disk : Disk) (place other : Place) (h : other ≠ []) :
    (disk.unset place).lookup? other = if other = place then none else disk.lookup? other := by
  simp [lookup?, h, unset, SortedMap.get?_erase]

end Disk

end TypedStore
