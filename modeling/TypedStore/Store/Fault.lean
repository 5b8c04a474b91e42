/-
  TypedStore/Store/Fault.lean
  ===========================
  **How the operations of a store fail.**

  Each operation has its own faults. Storing a value goes through stages, and a fault tells by its
  kind which stage the attempt had completed.
-/
import TypedStore.Config.File
import TypedStore.Key
import TypedStore.Medium.Basic
import TypedStore.Tagged.Decoding

namespace TypedStore

inductive PutStage where
  | received
  | keyValidated
  | valueEncoded
  | sizeChecked
  | uniquenessChecked
  | persisted
deriving DecidableEq, Repr

def PutStage.name : PutStage → String
  | .received => "received"
  | .keyValidated => "key_validated"
  | .valueEncoded => "value_encoded"
  | .sizeChecked => "size_checked"
  | .uniquenessChecked => "uniqueness_checked"
  | .persisted => "persisted"

inductive PutFault where
  | key (fault : KeyFault)
  | value (fault : ShapeFault)
  | tooLong (actual max : Nat)
  | duplicate (key : String)
  | storage (fault : StorageFault)
deriving DecidableEq, Repr

namespace PutFault

def message : PutFault → String
  | .key fault => "Invalid key: " ++ fault.message
  | .value fault => "Invalid value: " ++ fault.message
  | .tooLong actual max =>
    "Value too long: " ++ actual.repr ++ " bytes exceeds maximum " ++ max.repr
  | .duplicate name => "Duplicate key: '" ++ name ++ "' already exists"
  | .storage fault => "Storage error: " ++ fault.message

def reason : PutFault → String
  | .key fault => fault.reason
  | .value fault => fault.reason
  | .tooLong .. => "value_too_long"
  | .duplicate _ => "duplicate_key"
  | .storage _ => "storage"

def stage : PutFault → PutStage
  | .key _ => .received
  | .value _ => .keyValidated
  | .tooLong .. => .valueEncoded
  | .duplicate _ => .sizeChecked
  | .storage _ => .uniquenessChecked

end PutFault

inductive GetFault where
  | notFound (key : String)
  | corrupt (key : String) (fault : DecodeFault)
  | storage (fault : StorageFault)
deriving DecidableEq, Repr

namespace GetFault

def message : GetFault → String
  | .notFound key => "Key not found: '" ++ key ++ "'"
  | .corrupt key fault => "Corrupt entry for '" ++ key ++ "': " ++ fault.message
  | .storage fault => "Storage error: " ++ fault.message

def reason : GetFault → String
  | .notFound _ => "not_found"
  | .corrupt .. => "corrupt"
  | .storage _ => "storage"

def isNotFound : GetFault → Bool
  | .notFound _ => true
  | _ => false

end GetFault

inductive RemoveFault where
  /-- There is no value, or no default to fall back on. -/
  | notFound (key : String)
  | storage (fault : StorageFault)
deriving DecidableEq, Repr

def RemoveFault.message : RemoveFault → String
  | .notFound key => "Key not found: '" ++ key ++ "'"
  | .storage fault => "Storage error: " ++ fault.message

inductive OpenFault where
  | config (fault : ConfigFault)
  | storage (fault : StorageFault)
  /-- A default that could not be stored. -/
  | invalidDefault (key : String) (fault : PutFault)
  /-- An entry of the defaults file that does not stand for a value. -/
  | corruptDefault (key : String) (fault : DecodeFault)
  /-- The defaults file is not there although it has to be. -/
  | defaultsMissing (path : Path)
deriving DecidableEq, Repr

def OpenFault.message : OpenFault → String
  | .config fault => fault.message
  | .storage fault => "Storage error: " ++ fault.message
  | .invalidDefault key fault => "Invalid default for '" ++ key ++ "': " ++ fault.message
  | .corruptDefault key fault => "Corrupt default for '" ++ key ++ "': " ++ fault.message
  | .defaultsMissing path => "Defaults file '" ++ path.text ++ "' is required but missing"

/-- Why an earlier generation was not brought back, or its files not named. -/
inductive SnapshotFault where
  | invalidId (id count : Nat)
  | noFile (id : Nat)
  | storage (fault : StorageFault)
deriving DecidableEq, Repr

namespace SnapshotFault

def message : SnapshotFault → String
  | .invalidId id count =>
    "Invalid snapshot id " ++ id.repr ++ ": " ++ count.repr ++ " generation(s) on disk"
  | .noFile id => "No file for snapshot " ++ id.repr
  | .storage fault => "Storage error: " ++ fault.message

def reason : SnapshotFault → String
  | .invalidId .. => "invalid_snapshot_id"
  | .noFile _ => "file_not_found"
  | .storage _ => "storage"

end SnapshotFault

end TypedStore
