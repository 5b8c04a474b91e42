/-
  TypedStore/Store/Entries.lean
  =============================
  **Storing, fetching, listing and removing values.**
-/
import TypedStore.Store.Basic

namespace TypedStore.Store

variable {σ : Type}

/-! ### Storing -/

/-- Store a value: after the checks the key is locked, looked up if it must be new, and given the
    text of the value. -/
def putChecked (store : Store σ) (key : String) (value : Value) :
    Op PutFault (Session σ) Unit := do
  let (key, encoding) ← Op.ofExcept (vet store.limits key value)
  withLock key.bytes do
    if store.policy = .reject then
      if ← (onMedium (store.medium.contains key.bytes)).mapError .storage then
        throw (.duplicate key.text)
    (onMedium (store.medium.persist key.bytes (Utf8.encode encoding))).mapError .storage
    Op.report (.stored key.text encoding)

/-- Store a value under a key. A refusal is reported with the stage that had been completed. -/
def put (store : Store σ) (key : String) (value : Value) : Op PutFault (Session σ) Unit := do
  match ← (store.putChecked key value).attempt with
  | .ok () => pure ()
  | .error fault =>
    Op.report (.putRejected key fault.stage.name fault.reason)
    throw fault

/-! ### Fetching -/

def fetch (store : Store σ) (key : String) : Op StorageFault (Session σ) (Option Bytes) :=
  if isAdmissible store.limits key then
    lockedOnMedium (Utf8.encode key) (store.medium.retrieve (Utf8.encode key))
  else pure none

def get (store : Store σ) (key : String) : Op GetFault (Session σ) Value := do
  match ← (store.fetch key).mapError .storage with
  | none =>
    Op.report (.notFound key)
    throw (.notFound key)
  | some bytes =>
    match Value.decodeBytes bytes with
    | .error fault =>
      Op.report (.undecodable key fault.reason fault.message)
      throw (.corrupt key fault)
    | .ok value =>
      Op.report (.retrieved key value.encoding)
      return value

def contains (store : Store σ) (key : String) : Op StorageFault (Session σ) Bool :=
  if isAdmissible store.limits key then onMedium (store.medium.contains (Utf8.encode key))
  else pure false

/-! ### Listing -/

def listedKey (key : Bytes) : Except StorageFault String :=
  (Utf8.decode key).mapError .listedKeyNotText

def keys (store : Store σ) : Op StorageFault (Session σ) (List String) := do
  let listed ← onMedium store.medium.keys
  let texts ← Op.ofExcept (listed.mapM listedKey)
  return texts.mergeSort fun a b => (compare a b).isLE

/-! ### Removing -/

def remove (store : Store σ) (key : String) : Op RemoveFault (Session σ) Unit := do
  let present ←
    if isAdmissible store.limits key then
      (lockedOnMedium (Utf8.encode key) (store.medium.remove (Utf8.encode key))).mapError
        RemoveFault.storage
    else pure false
  if present then Op.report (.removed key) else throw (.notFound key)

end TypedStore.Store
