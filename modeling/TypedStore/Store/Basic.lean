/-
  TypedStore/Store/Basic.lean
  ===========================
  **Stores: a medium, rules for what goes into it, and defaults.**

  A store adds to a medium what the medium does not know: which keys and values are allowed, what
  a second value for a key does, and which values stand in where nothing is stored. The state of
  a store is that of its medium and the table of locks; several stores may work on one medium.

  A key that could not have been stored is never asked for: the operations answer that it is
  absent, and neither the locks nor the medium notice.
-/
import TypedStore.Archive.Basic
import TypedStore.Lock
import TypedStore.Store.Fault
import TypedStore.Tagged.Encoding

namespace TypedStore

/-- The earlier generations of a medium that keeps them. -/
structure Snapshots (σ : Type) where
  /-- How many generations are kept, with the current one. -/
  keep : σ → Nat
  /-- How many generations there are. -/
  count : σ → Nat
  /-- Make an earlier generation the current one. -/
  restore : Nat → Op StorageFault σ Unit
  /-- The data file of a generation, if it is there. -/
  dataFile : σ → Nat → Option Path
  /-- The checksum file of a generation, if it is there. -/
  checksumFile : σ → Nat → Option Path

structure Store (σ : Type) where
  medium : Medium σ
  /-- What the medium offers for earlier generations, if it keeps any. -/
  snapshots : Option (Snapshots σ)
  policy : Uniqueness
  limits : Limits
  defaults : SortedMap String Value

/-- The state of a medium, and the locks of a store on it. -/
structure Session (σ : Type) where
  medium : σ
  locks : KeyLocks

/-! ### Parts of larger states -/

/-- The same generations as a part of a larger state. -/
def Snapshots.within {σ τ : Type} (get : τ → σ) (set : τ → σ → τ) (s : Snapshots σ) :
    Snapshots τ where
  keep state := s.keep (get state)
  count state := s.count (get state)
  restore generation := (s.restore generation).within get set
  dataFile state := s.dataFile (get state)
  checksumFile state := s.checksumFile (get state)

def Archive.snapshots : Snapshots Mounted where
  keep s := s.archive.keep
  count := generations
  restore := restore
  dataFile s generation :=
    let path := s.archive.files.data generation
    if s.disk.contains path then some path else none
  checksumFile s generation :=
    let path := s.archive.files.checksum generation
    if s.disk.contains path then some path else none

namespace Store

variable {σ τ ε α : Type}

/-- The same store with its medium as a part of a larger state. -/
def within (get : τ → σ) (set : τ → σ → τ) (store : Store σ) : Store τ where
  medium := store.medium.within get set
  snapshots := store.snapshots.map (·.within get set)
  policy := store.policy
  limits := store.limits
  defaults := store.defaults

/-- A store in memory with the rules that settings have by default. -/
def ephemeral (medium : Medium σ) : Store σ := ⟨medium, none, .reject, {}, .empty⟩

def summary (store : Store σ) : String :=
  "Store \x7b policy: " ++
    (match store.policy with
      | .reject => "Reject"
      | .overwrite => "Overwrite") ++
    ", limits: Limits \x7b max_key_bytes: " ++ store.limits.maxKeyBytes.repr ++
    ", max_value_bytes: " ++ store.limits.maxValueBytes.repr ++ " \x7d, file_backed: " ++
    Event.boolText store.snapshots.isSome ++ ", defaults: " ++ store.defaults.size.repr ++
    ", .. \x7d"

/-! ### Access to the medium -/

/-- An operation of the medium as one of the store. -/
def onMedium (op : Op StorageFault σ α) : Op StorageFault (Session σ) α :=
  op.within Session.medium fun s medium => { s with medium := medium }

def withLock (key : Bytes) (op : Op ε (Session σ) α) : Op ε (Session σ) α := fun s =>
  let (mutex, locks) := s.state.locks.acquire key
  match op ⟨⟨s.state.medium, locks⟩, s.events⟩ with
  | .ok a r => .ok a ⟨⟨r.state.medium, r.state.locks.finish key mutex⟩, r.events⟩
  | .error e r => .error e ⟨⟨r.state.medium, r.state.locks.finish key mutex⟩, r.events⟩

/-- An operation of the medium while a key is locked. -/
def lockedOnMedium (key : Bytes) (op : Op StorageFault σ α) : Op StorageFault (Session σ) α :=
  withLock key (onMedium op)

/-! ### What may be stored -/

/-- The key and the text to store, if the limits allow both: the key is looked at first, then
    what the value consists of, then its length. -/
def vet (limits : Limits) (key : String) (value : Value) :
    Except PutFault (Key limits × String) := do
  let key ← (Key.ofText limits key).mapError .key
  value.checkDomain.mapError .value
  let encoding := value.encoding
  (limits.checkValueLength (value.storedLength encoding)).mapError fun e =>
    .tooLong e.actual e.max
  return (key, encoding)

end Store

end TypedStore
