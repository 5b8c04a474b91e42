/-
  TypedStore/Medium/Basic.lean
  ============================
  **What a store keeps its entries in.**

  A medium keeps bytes under keys, which are bytes too, and knows nothing about what they mean. It
  is given by its operations on some state, each of which may fail. Whether a key is there can be
  found out by fetching its value, and everything can be removed key by key: a medium that offers
  nothing better gets these two operations from `Medium.ofRequired`.
-/
import TypedStore.Json.Reader
import TypedStore.Journal
import TypedStore.Bytes.Checksum

namespace TypedStore

inductive StorageFault where
  | disk (fault : DiskFault)
  /-- The data file is not there although it has to be. -/
  | dataMissing (path : Path)
  | keyNotText (fault : Utf8.Fault)
  | valueNotText (fault : Utf8.Fault)
  /-- A value, or a file of entries, is not JSON. -/
  | notJson
  | checksumMissing (path : Path)
  | checksumLength (path : Path) (length : Nat)
  | checksumMismatch (path : Path) (stored computed : UInt32)
  /-- A key that the medium lists is not text. -/
  | listedKeyNotText (fault : Utf8.Fault)
  | noGenerations
  /-- An operation that the medium does not carry out at present. -/
  | unavailable (operation : String)
deriving DecidableEq, Repr

inductive StorageArea where
  | disk
  | serialization
  | corruption
  | medium
deriving DecidableEq, Repr

namespace StorageFault

def area : StorageFault → StorageArea
  | .disk _ | .dataMissing _ => .disk
  | .keyNotText _ | .valueNotText _ | .notJson => .serialization
  | .checksumMissing _ | .checksumLength .. | .checksumMismatch .. | .listedKeyNotText _ =>
    .corruption
  | .noGenerations | .unavailable _ => .medium

def detail : StorageFault → String
  | .disk fault => fault.message
  | .dataMissing path => "required kvs file '" ++ path.text ++ "' does not exist"
  | .keyNotText fault => "key is not UTF-8: " ++ fault.message
  | .valueNotText fault => "value is not UTF-8: " ++ fault.message
  | .notJson => Json.Fault.malformed.message
  | .checksumMissing path => "checksum file '" ++ path.text ++ "' is missing"
  | .checksumLength path length =>
    "checksum file '" ++ path.text ++ "' has " ++ length.repr ++ " bytes, expected 4"
  | .checksumMismatch path stored computed =>
    "checksum mismatch for '" ++ path.text ++ "': stored " ++ Checksum.hex stored ++
      ", computed " ++ Checksum.hex computed
  | .listedKeyNotText fault => "stored key is not UTF-8: " ++ fault.message
  | .noGenerations => "snapshot_max_count must be at least 1"
  | .unavailable operation => operation ++ " unavailable"

def message (fault : StorageFault) : String :=
  (match fault.area with
    | .disk => "I/O error: "
    | .serialization => "Serialization error: "
    | .corruption => "Data corruption: "
    | .medium => "Storage error: ") ++ fault.detail

end StorageFault

/-- The operations of a medium whose state is a `σ`. -/
structure Medium (σ : Type) where
  /-- Keep a value under a key, in place of an earlier one. -/
  persist : Bytes → Bytes → Op StorageFault σ Unit
  /-- The value under a key. -/
  retrieve : Bytes → Op StorageFault σ (Option Bytes)
  /-- Remove a key; whether it was there. -/
  remove : Bytes → Op StorageFault σ Bool
  /-- All keys. -/
  keys : Op StorageFault σ (List Bytes)
  /-- Whether a key is there. -/
  contains : Bytes → Op StorageFault σ Bool
  /-- Remove every key; how many there were. -/
  clear : Op StorageFault σ Nat

namespace Medium

variable {σ τ : Type}

/-- Remove keys one after the other, counting those that were there. -/
def removeEach (remove : Bytes → Op StorageFault σ Bool) :
    Nat → List Bytes → Op StorageFault σ Nat
  | removed, [] => pure removed
  | removed, key :: rest => do
    let present ← remove key
    removeEach remove (if present then removed + 1 else removed) rest

/-- The medium with these four operations, which finds out by them whether a key is there and how
    to remove everything. -/
def ofRequired (persist : Bytes → Bytes → Op StorageFault σ Unit)
    (retrieve : Bytes → Op StorageFault σ (Option Bytes))
    (remove : Bytes → Op StorageFault σ Bool) (keys : Op StorageFault σ (List Bytes)) :
    Medium σ where
  persist := persist
  retrieve := retrieve
  remove := remove
  keys := keys
  contains key := do return (← retrieve key).isSome
  clear := do removeEach remove 0 (← keys)

def within (get : τ → σ) (set : τ → σ → τ) (m : Medium σ) : Medium τ where
  persist key value := (m.persist key value).within get set
  retrieve key := (m.retrieve key).within get set
  remove key := (m.remove key).within get set
  keys := m.keys.within get set
  contains key := (m.contains key).within get set
  clear := m.clear.within get set

end Medium

end TypedStore
