/-
  TypedStore/Config/Mode.lean
  ===========================
  **Choices that settings name.**
-/

namespace TypedStore

/-- What storing a value does where the key has one already. -/
inductive Uniqueness where
  | reject
  | overwrite
deriving DecidableEq, Repr

namespace Uniqueness

def name : Uniqueness → String
  | .reject => "reject"
  | .overwrite => "overwrite"

def ofName? (name : String) : Option Uniqueness :=
  [reject, overwrite].find? (·.name = name)

end Uniqueness

/-- What is made of a file that may or may not be there when a store is opened. -/
inductive LoadMode where
  | ignored
  | optional
  | required
deriving DecidableEq, Repr

namespace LoadMode

def name : LoadMode → String
  | .ignored => "ignored"
  | .optional => "optional"
  | .required => "required"

def ofName? (name : String) : Option LoadMode :=
  [ignored, optional, required].find? (·.name = name)

end LoadMode

end TypedStore
