/-
  TypedStore/Lock.lean
  ====================
  **One mutex for each key that is in use.**

  The table hands out handles to mutexes. A key has a mutex from the first handle on; operations
  that lock a key give their handle back when they are done, and then the mutex is dropped from
  the table if no other handle to it is live. So the table holds only keys that are in use, and
  two live handles for one key are handles to one mutex.

  A mutex is known by its number; a number is used once. `live` lists the mutex of every live
  handle, once for each handle.
-/
import TypedStore.Bytes.Utf8
import TypedStore.SortedMap

namespace TypedStore

/-- A table of mutexes and the handles that are live. -/
structure KeyLocks where
  table : SortedMap Bytes Nat
  live : List Nat
  next : Nat
deriving DecidableEq

namespace KeyLocks

def empty : KeyLocks := ⟨.empty, [], 0⟩

instance : Inhabited KeyLocks := ⟨empty⟩

def size (locks : KeyLocks) : Nat := locks.table.size

def isEmpty (locks : KeyLocks) : Bool := locks.table.isEmpty

/-- A handle to the mutex of a key, which is made if there is none. -/
def acquire (locks : KeyLocks) (key : Bytes) : Nat × KeyLocks :=
  match locks.table.get? key with
  | some mutex => (mutex, ⟨locks.table, mutex :: locks.live, locks.next⟩)
  | none =>
    (locks.next,
      ⟨locks.table.insert key locks.next, locks.next :: locks.live, locks.next + 1⟩)

def release (locks : KeyLocks) (mutex : Nat) : KeyLocks :=
  ⟨locks.table, locks.live.erase mutex, locks.next⟩

/-- Drop the mutex of a key, unless a handle to it is live. -/
def evict (locks : KeyLocks) (key : Bytes) : KeyLocks :=
  match locks.table.get? key with
  | some mutex =>
    if mutex ∈ locks.live then locks else ⟨locks.table.erase key, locks.live, locks.next⟩
  | none => locks

def finish (locks : KeyLocks) (key : Bytes) (mutex : Nat) : KeyLocks :=
  (locks.release mutex).evict key

def withLock {α : Type u} (key : Bytes) (body : KeyLocks → α × KeyLocks) (locks : KeyLocks) :
    α × KeyLocks :=
  let (mutex, locks) := locks.acquire key
  let (result, locks) := body locks
  (result, locks.finish key mutex)

end KeyLocks

end TypedStore
