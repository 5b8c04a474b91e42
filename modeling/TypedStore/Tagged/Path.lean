/-
  TypedStore/Tagged/Path.lean
  ===========================
  **Where a node stands inside a value.**
-/

namespace TypedStore

/-- One step from a node to a node in its payload. -/
inductive Step where
  | index (i : Nat)
  | field (name : String)
deriving DecidableEq, Repr

abbrev NodePath := List Step

def Step.text : Step → String
  | .index i => "arr[" ++ i.repr ++ "]"
  | .field name => "obj." ++ name

/-- A path as it is written: `$` for the root, else the steps with points between them. -/
def NodePath.text (path : NodePath) : String :=
  if path = [] then "$" else ".".intercalate (path.map Step.text)

example : NodePath.text [.index 4, .field "a"] = "arr[4].obj.a" := by decide +kernel

end TypedStore
