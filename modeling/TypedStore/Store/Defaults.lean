/-
  TypedStore/Store/Defaults.lean
  ==============================
  **Values that stand in where nothing is stored.**

  A store has default values for some keys. They are never written to the medium; a key has its
  default as long as no value is stored under it, and resetting a key removes what is stored.
-/
import TypedStore.Store.Entries

namespace TypedStore.Store

variable {σ : Type}

/-- The store with one more default, which has to be a value that could be stored. -/
def withDefault (store : Store σ) (entry : String × Value) : Except OpenFault (Store σ) :=
  match vet store.limits entry.1 entry.2 with
  | .ok _ => .ok { store with defaults := store.defaults.insert entry.1 entry.2 }
  | .error fault => .error (.invalidDefault entry.1 fault)

/-- The store with more defaults; a later one replaces an earlier one of its key. -/
def withDefaults (store : Store σ) (entries : List (String × Value)) :
    Except OpenFault (Store σ) :=
  entries.foldlM withDefault store

def getDefault (store : Store σ) (key : String) : Except GetFault Value :=
  (store.defaults.get? key).elim (.error (.notFound key)) .ok

/-- The value stored under a key, or its default if there is none. -/
def getOrDefault (store : Store σ) (key : String) : Op GetFault (Session σ) Value := do
  match ← (store.get key).attempt with
  | .ok value => return value
  | .error (.notFound _) => Op.ofExcept (store.getDefault key)
  | .error fault => throw fault

def isDefault (store : Store σ) (key : String) : Op StorageFault (Session σ) Bool := do
  if store.defaults.contains key then return !(← store.contains key) else return false

/-- Remove what is stored under a key, so that it has its default. -/
def resetKey (store : Store σ) (key : String) : Op RemoveFault (Session σ) Unit := do
  if store.defaults.contains key then
    let present ← (lockedOnMedium (Utf8.encode key)
      (store.medium.remove (Utf8.encode key))).mapError RemoveFault.storage
    Op.report (.resetKey key present)
  else throw (.notFound key)

/-- Remove everything that is stored; how many values there were. -/
def resetAll (store : Store σ) : Op StorageFault (Session σ) Nat := do
  let count ← onMedium store.medium.clear
  Op.report (.resetAll count)
  return count

end TypedStore.Store
