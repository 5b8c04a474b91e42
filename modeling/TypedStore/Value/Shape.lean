/-
  TypedStore/Value/Shape.lean
  ===========================
  **Which values can be stored, and which payloads make a value.**

  A value is in the domain of the store if it is nested no deeper than `maxDepth` and every float
  in it is finite. A scalar is made from a tag and a payload: the payload must be of the type that
  the tag demands, and an integer must fit the width that the tag names. Nothing is converted,
  except that a float tag takes an integer payload for the number that it writes.
-/
import TypedStore.Json.NumberText
import TypedStore.Value.Basic

namespace TypedStore

/-- Why something does not describe a value that can be stored. -/
inductive ShapeFault where
  /-- No kind has this tag. -/
  | unknownTag (tag : String)
  /-- The payload's type is not the one the kind demands. -/
  | mismatch (kind : Kind) (found : String)
  /-- The integer does not fit the width of the kind. -/
  | outOfRange (kind : Kind) (n : Int)
  /-- A composite kind where a scalar is asked for. -/
  | composite (kind : Kind)
  /-- A float that no text writes. -/
  | notFinite (x : Binary64)
  /-- More nesting than is allowed. -/
  | tooDeep (depth : Nat)
deriving DecidableEq, Repr

def Kind.payloadType : Kind → String
  | .i32 | .u32 | .i64 | .u64 => "integer"
  | .f64 => "number"
  | .bool => "boolean"
  | .str => "string"
  | .arr => "array"
  | .obj => "object"
  | .null => "null"

/-- How deep a value may be nested. Each level takes two containers of JSON text, so the text of a
    value in the domain stays within what the reader opens. -/
def maxDepth : Nat := 32

/-- A float that is not finite, as error messages name it. -/
def Binary64.nonFiniteName (x : Binary64) : String :=
  if x.isNaN then "NaN" else if x.isNegative then "-inf" else "inf"

namespace ShapeFault

def message : ShapeFault → String
  | .unknownTag tag => "unknown type tag '" ++ tag ++ "'"
  | .mismatch kind found =>
    "tag '" ++ kind.tag ++ "' expects " ++ kind.payloadType ++ ", found " ++ found
  | .outOfRange kind n => n.repr ++ " is out of range for '" ++ kind.tag ++ "'"
  | .composite kind => "tag '" ++ kind.tag ++ "' is composite"
  | .notFinite x => "f64 value " ++ x.nonFiniteName ++ " is not finite"
  | .tooDeep depth =>
    "nesting depth " ++ depth.repr ++ " exceeds maximum " ++ maxDepth.repr

def reason : ShapeFault → String
  | .unknownTag _ => "unknown_tag"
  | .mismatch .. => "payload_mismatch"
  | .outOfRange .. => "out_of_range"
  | .composite _ => "not_scalar"
  | .notFinite _ => "non_finite"
  | .tooDeep _ => "too_deep"

end ShapeFault

namespace Value

/-! ### The domain -/

mutual

/-- The first float of the value that is not finite. -/
def nonFinite? : Value → Option Binary64
  | .f64 x => if x.isFinite then none else some x
  | .arr items => nonFiniteItem? items
  | .obj members => nonFiniteMember? members
  | _ => none

def nonFiniteItem? : List Value → Option Binary64
  | [] => none
  | item :: rest => (nonFinite? item).or (nonFiniteItem? rest)

def nonFiniteMember? : List (String × Value) → Option Binary64
  | [] => none
  | (_, value) :: rest => (nonFinite? value).or (nonFiniteMember? rest)

end

/-- Whether the value can be stored: the depth is looked at first, then the floats. -/
def checkDomain (v : Value) : Except ShapeFault Unit :=
  if maxDepth < v.depth then .error (.tooDeep v.depth)
  else
    match v.nonFinite? with
    | some x => .error (.notFinite x)
    | none => .ok ()

theorem checkDomain_eq_ok_iff {v : Value} :
    v.checkDomain = .ok () ↔ v.depth ≤ maxDepth ∧ v.nonFinite? = none := by
  unfold checkDomain
  split
  · next h => simp; omega
  · next h =>
    cases v.nonFinite? with
    | none => simp; omega
    | some x => simp

/-! ### Scalars -/

/-- The integer as a value of one of the integer kinds, if it fits the width. -/
def ofInt? (n : Int) : Kind → Option Value
  | .i32 => if -0x80000000 ≤ n ∧ n < 0x80000000 then some (.i32 (.ofInt n)) else none
  | .u32 => if 0 ≤ n ∧ n < 0x100000000 then some (.u32 (.ofNat n.toNat)) else none
  | .i64 =>
    if -0x8000000000000000 ≤ n ∧ n < 0x8000000000000000 then some (.i64 (.ofInt n)) else none
  | .u64 => if 0 ≤ n ∧ n < 0x10000000000000000 then some (.u64 (.ofNat n.toNat)) else none
  | _ => none

end Value

/-- The number as a float: an integer becomes the nearest one. -/
def Json.Number.toBinary64 : Json.Number → Binary64
  | .int n => .ofMagnitude (n.val < 0) (Binary64.nearestMagnitude n.val.natAbs 1)
  | .float x => x

namespace Value

/-- The value of a scalar kind that a payload makes. -/
def ofPayload (kind : Kind) (payload : Json) : Except ShapeFault Value :=
  match kind, payload with
  | .arr, _ | .obj, _ => .error (.composite kind)
  | .null, .null => .ok .null
  | .bool, .bool b => .ok (.bool b)
  | .str, .string s => .ok (.str s)
  | .f64, .number n => .ok (.f64 n.toBinary64)
  | .i32, .number (.int n) | .u32, .number (.int n)
  | .i64, .number (.int n) | .u64, .number (.int n) =>
    (ofInt? n kind).elim (.error (.outOfRange kind n)) .ok
  | _, _ => .error (.mismatch kind payload.typeName)

def ofScalar (tag : String) (payload : Json) : Except ShapeFault Value :=
  match Kind.ofTag? tag with
  | none => .error (.unknownTag tag)
  | some kind => ofPayload kind payload

end Value

end TypedStore
