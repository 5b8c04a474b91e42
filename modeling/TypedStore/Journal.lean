/-
  TypedStore/Journal.lean
  =======================
  **What a store reports about its work.**

  Operations report events as they go. An event has a level, a message and named fields; the
  message and the fields follow from its kind. The journal of a run is the list of its events,
  the oldest first, and is kept beside the state that the run works on.

  `Op ε σ α` is the type of operations: on a state `σ` they return an `α` or fail with an `ε`,
  and what they have changed and reported before failing stays.
-/
import TypedStore.Config.Mode
import TypedStore.Disk.Basic

namespace TypedStore

inductive Level where
  | warn
  | info
  | debug
deriving DecidableEq, Repr

def Level.name : Level → String
  | .warn => "WARN"
  | .info => "INFO"
  | .debug => "DEBUG"

inductive Event where
  /-- The files of a store have been opened. -/
  | openedFiles (path : Path) (instanceId entries : Nat) (mode : LoadMode) (snapshotMaxCount : Nat)
  | readDefaults (path : Path) (entries : Nat)
  /-- A commit has been completed. -/
  | wroteData (path : Path) (bytes : Nat)
  | restored (snapshot entries : Nat)
  /-- A data file could not be put back after a commit had failed. -/
  | notPutBack (path : Path) (error : String)
  /-- A temporary file could not be removed. -/
  | notDiscarded (path : Path) (error : String)
  | openedStore (policy : Uniqueness) (instanceId maxKeyBytes maxValueBytes : Nat)
  | stored (key value : String)
  | putRejected (key stage reason : String)
  | retrieved (key value : String)
  | notFound (key : String)
  | undecodable (key reason error : String)
  | removed (key : String)
  | resetKey (key : String) (present : Bool)
  | resetAll (count : Nat)
  | restoreRejected (snapshot count : Nat)
deriving DecidableEq, Repr

namespace Event

def level : Event → Level
  | .notPutBack .. | .undecodable .. => .warn
  | .openedFiles .. | .restored .. | .openedStore .. | .stored .. | .retrieved .. | .removed ..
  | .resetKey .. | .resetAll .. => .info
  | .readDefaults .. | .wroteData .. | .notDiscarded .. | .putRejected .. | .notFound ..
  | .restoreRejected .. => .debug

def message : Event → String
  | .openedFiles .. => "Opened file backend"
  | .readDefaults .. => "Read defaults file"
  | .wroteData .. => "Wrote kvs file"
  | .restored .. => "Restored snapshot"
  | .notPutBack .. => "Could not restore previous kvs file"
  | .notDiscarded .. => "Could not remove temp file"
  | .openedStore .. => "Opened store"
  | .stored .. => "Stored value"
  | .putRejected .. => "Put rejected"
  | .retrieved .. => "Retrieved value"
  | .notFound .. => "Key not found"
  | .undecodable .. => "Stored value does not decode"
  | .removed .. => "Removed value"
  | .resetKey .. => "Reset key to default"
  | .resetAll .. => "Reset all keys to defaults"
  | .restoreRejected .. => "Snapshot restore rejected"

def boolText (b : Bool) : String := if b then "true" else "false"

def fields : Event → List (String × String)
  | .openedFiles path instanceId entries mode snapshotMaxCount => [
      ("path", path.text), ("instance_id", instanceId.repr), ("entries", entries.repr),
      ("kvs_load", mode.name), ("snapshot_max_count", snapshotMaxCount.repr)]
  | .readDefaults path entries => [("path", path.text), ("entries", entries.repr)]
  | .wroteData path bytes => [("path", path.text), ("bytes", bytes.repr)]
  | .restored snapshot entries =>
    [("snapshot_id", snapshot.repr), ("entries", entries.repr)]
  | .notPutBack path error | .notDiscarded path error =>
    [("path", path.text), ("error", error)]
  | .openedStore policy instanceId maxKeyBytes maxValueBytes => [
      ("uniqueness", policy.name), ("instance_id", instanceId.repr),
      ("max_key_bytes", maxKeyBytes.repr), ("max_value_bytes", maxValueBytes.repr)]
  | .stored key value | .retrieved key value => [("key", key), ("value", value)]
  | .putRejected key stage reason => [("key", key), ("stage", stage), ("reason", reason)]
  | .notFound key | .removed key => [("key", key)]
  | .undecodable key reason error => [("key", key), ("reason", reason), ("error", error)]
  | .resetKey key present => [("key", key), ("removed", boolText present)]
  | .resetAll count => [("removed", count.repr)]
  | .restoreRejected snapshot count =>
    [("snapshot_id", snapshot.repr), ("count", count.repr)]

end Event

/-! ### Operations -/

structure Journaled (σ : Type) where
  state : σ
  events : List Event

abbrev Op (ε σ α : Type) := EStateM ε (Journaled σ) α

namespace Op

variable {ε ε' σ τ α β : Type}

def report (event : Event) : Op ε σ Unit := fun s =>
  .ok () { s with events := s.events ++ [event] }

def state : Op ε σ σ := fun s => .ok s.state s

def setState (state : σ) : Op ε σ Unit := fun s => .ok () { s with state := state }

/-- A step that changes the state, or fails and leaves it. -/
def change (f : σ → Except ε σ) : Op ε σ Unit := fun s =>
  match f s.state with
  | .ok state => .ok () { s with state := state }
  | .error e => .error e s

/-- A step that may change the state also when it fails. -/
def step (f : σ → Except ε α × σ) : Op ε σ α := fun s =>
  match f s.state with
  | (.ok a, state) => .ok a { s with state := state }
  | (.error e, state) => .error e { s with state := state }

def look (f : σ → Except ε α) : Op ε σ α := fun s =>
  match f s.state with
  | .ok a => .ok a s
  | .error e => .error e s

/-- A result that has been found without the state. -/
def ofExcept (r : Except ε α) : Op ε σ α := look fun _ => r

/-- The operation with its failures put in other words. -/
def mapError (f : ε → ε') (op : Op ε σ α) : Op ε' σ α := fun s =>
  match op s with
  | .ok a s => .ok a s
  | .error e s => .error (f e) s

/-- The operation with its failure, if any, as its result. -/
def attempt (op : Op ε σ α) : Op ε' σ (Except ε α) := fun s =>
  match op s with
  | .ok a s => .ok (.ok a) s
  | .error e s => .ok (.error e) s

def within (get : τ → σ) (set : τ → σ → τ) (op : Op ε σ α) : Op ε τ α := fun s =>
  match op ⟨get s.state, s.events⟩ with
  | .ok a r => .ok a ⟨set s.state r.state, r.events⟩
  | .error e r => .error e ⟨set s.state r.state, r.events⟩

end Op

end TypedStore
