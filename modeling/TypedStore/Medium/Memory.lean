/-
  TypedStore/Medium/Memory.lean
  =============================
  **A medium that is a map in memory.**

  None of its operations fails and none reports anything.
-/
import TypedStore.Medium.Basic

namespace TypedStore

abbrev Memory := SortedMap Bytes Bytes

namespace Memory

def medium : Medium Memory where
  persist key value := do Op.setState ((← Op.state).insert key value)
  retrieve key := do return (← Op.state).get? key
  remove key := do
    let entries ← Op.state
    Op.setState (entries.erase key)
    return entries.contains key
  keys := do return (← Op.state).keys
  contains key := do return (← Op.state).contains key
  clear := do
    let entries ← Op.state
    Op.setState .empty
    return entries.size

end Memory

end TypedStore
