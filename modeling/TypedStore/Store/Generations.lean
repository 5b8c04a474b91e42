/-
  TypedStore/Store/Generations.lean
  =================================
  **Earlier states of a store.**

  A store whose medium keeps earlier generations can bring one of them back. Generation zero is
  the present state, so the generations that can be brought back are numbered from one.
-/
import TypedStore.Store.Basic

namespace TypedStore.Store

variable {σ : Type}

/-- How many generations are kept, with the current one; none without files. -/
def snapshotMaxCount (store : Store σ) (state : σ) : Nat :=
  store.snapshots.elim 0 (·.keep state)

/-- How many generations there are, with the current one; none without files. -/
def snapshotCount (store : Store σ) (state : σ) : Nat :=
  store.snapshots.elim 0 (·.count state)

def restoreSnapshot (store : Store σ) (id : Nat) : Op SnapshotFault (Session σ) Unit := do
  let count := store.snapshotCount (← Op.state).medium
  match store.snapshots with
  | some snapshots =>
    if 1 ≤ id ∧ id < count then (onMedium (snapshots.restore id)).mapError .storage
    else
      Op.report (.restoreRejected id count)
      throw (.invalidId id count)
  | none =>
    Op.report (.restoreRejected id count)
    throw (.invalidId id count)

def dataFile (store : Store σ) (state : σ) (id : Nat) : Except SnapshotFault Path :=
  (store.snapshots.bind fun s => s.dataFile state id).elim (.error (.noFile id)) .ok

def checksumFile (store : Store σ) (state : σ) (id : Nat) : Except SnapshotFault Path :=
  (store.snapshots.bind fun s => s.checksumFile state id).elim (.error (.noFile id)) .ok

end TypedStore.Store
