/-
  TypedStore/Limits.lean
  ======================
  **How long keys and values may be.**
-/

namespace TypedStore

structure Limits where
  maxKeyBytes : Nat := 32
  maxValueBytes : Nat := 1024
deriving DecidableEq, Repr

namespace Limits

def small : Limits := ⟨8, 64⟩

structure TooLong where
  actual : Nat
  max : Nat
deriving DecidableEq, Repr

def TooLong.message (e : TooLong) : String :=
  "Value too large: " ++ e.actual.repr ++ " bytes exceeds maximum " ++ e.max.repr

/-- Whether a value of this length is within the bound. -/
def checkValueLength (limits : Limits) (length : Nat) : Except TooLong Unit :=
  if limits.maxValueBytes < length then .error ⟨length, limits.maxValueBytes⟩ else .ok ()

end Limits

end TypedStore
