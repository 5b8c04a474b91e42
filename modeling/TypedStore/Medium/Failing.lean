/-
  TypedStore/Medium/Failing.lean
  ==============================
  **A medium whose operations can be made to fail.**

  It is a map in memory that offers the four required operations only and lists its keys in
  descending order. The operations that are named in its state fail without effect. It serves to
  try out what a store makes of a medium that fails, or that lists its keys in an order of its
  own.
-/
import TypedStore.Medium.Basic

namespace TypedStore

/-- The entries of a failing medium, and the operations that fail. -/
structure Failing where
  entries : SortedMap Bytes Bytes
  failing : List String
deriving DecidableEq

namespace Failing

/-- A medium without entries of which nothing fails. -/
def empty : Failing := ⟨.empty, []⟩

def demand (operation : String) : Op StorageFault Failing Unit :=
  Op.look fun s => if operation ∈ s.failing then .error (.unavailable operation) else .ok ()

def medium : Medium Failing :=
  .ofRequired
    (fun key value => do
      demand "persist"
      let s ← Op.state
      Op.setState { s with entries := s.entries.insert key value })
    (fun key => do
      demand "retrieve"
      return (← Op.state).entries.get? key)
    (fun key => do
      demand "remove"
      let s ← Op.state
      Op.setState { s with entries := s.entries.erase key }
      return s.entries.contains key)
    (do
      demand "keys"
      return (← Op.state).entries.keys.reverse)

end Failing

end TypedStore
