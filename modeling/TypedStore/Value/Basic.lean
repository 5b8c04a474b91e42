/-
  TypedStore/Value/Basic.lean
  ===========================
  **Values.**

  A value is a tree of scalars, arrays and objects. Each integer width is a kind of its own, so
  the number one has five different values. Objects keep their members in the order in which
  they were first set and have one member of a name (`Value.Distinct`); `Value.ofMembers` builds
  such an object from any list of members.
-/
import TypedStore.Json.Basic
import TypedStore.Value.Kind

namespace TypedStore

inductive Value where
  | i32 (n : Int32)
  | u32 (n : UInt32)
  | i64 (n : Int64)
  | u64 (n : UInt64)
  | f64 (x : Binary64)
  | bool (b : Bool)
  | str (s : String)
  | arr (items : List Value)
  | obj (members : List (String × Value))
  | null

namespace Value

instance : Inhabited Value := ⟨.null⟩

def kind : Value → Kind
  | .i32 _ => .i32
  | .u32 _ => .u32
  | .i64 _ => .i64
  | .u64 _ => .u64
  | .f64 _ => .f64
  | .bool _ => .bool
  | .str _ => .str
  | .arr _ => .arr
  | .obj _ => .obj
  | .null => .null

/-- The object with these members; of a repeated name the last value counts, at the first
    place. -/
def ofMembers (members : List (String × Value)) : Value :=
  .obj (members.foldl (fun ms m => Json.setMember m.1 m.2 ms) [])

/-! ### Views -/

def isNull (v : Value) : Bool := v.kind = .null

def isInteger (v : Value) : Bool := v.kind ∈ [.i32, .u32, .i64, .u64]

def isArray (v : Value) : Bool := v.kind = .arr

def isObject (v : Value) : Bool := v.kind = .obj

def bool? : Value → Option Bool
  | .bool b => some b
  | _ => none

def signed? : Value → Option Int64
  | .i32 n => some n.toInt64
  | .i64 n => some n
  | _ => none

def unsigned? : Value → Option UInt64
  | .u32 n => some n.toUInt64
  | .u64 n => some n
  | _ => none

def float? : Value → Option Binary64
  | .f64 x => some x
  | _ => none

def string? : Value → Option String
  | .str s => some s
  | _ => none

def items? : Value → Option (List Value)
  | .arr items => some items
  | _ => none

def members? : Value → Option (List (String × Value))
  | .obj members => some members
  | _ => none

/-! ### Depth -/

mutual

/-- How deep arrays and objects are nested; a scalar has depth zero. -/
def depth : Value → Nat
  | .arr items => 1 + depthItems items
  | .obj members => 1 + depthMembers members
  | _ => 0

def depthItems : List Value → Nat
  | [] => 0
  | item :: rest => max (depth item) (depthItems rest)

def depthMembers : List (String × Value) → Nat
  | [] => 0
  | (_, value) :: rest => max (depth value) (depthMembers rest)

end

/-! ### Distinct member names -/

mutual

/-- No object within the value has two members of one name. -/
def Distinct : Value → Prop
  | .arr items => DistinctItems items
  | .obj members => (members.map (·.1)).Nodup ∧ DistinctMembers members
  | _ => True

def DistinctItems : List Value → Prop
  | [] => True
  | item :: rest => Distinct item ∧ DistinctItems rest

def DistinctMembers : List (String × Value) → Prop
  | [] => True
  | (_, value) :: rest => Distinct value ∧ DistinctMembers rest

end

/-! ### Equality -/

mutual

/-- Equality of values: kinds must agree, floats are compared as numbers, and the order of an
    object's members does not count. -/
def same : Value → Value → Bool
  | .i32 m, .i32 n => m = n
  | .u32 m, .u32 n => m = n
  | .i64 m, .i64 n => m = n
  | .u64 m, .u64 n => m = n
  | .f64 x, .f64 y => x.sameNumber y
  | .bool a, .bool b => a = b
  | .str s, .str t => s = t
  | .arr xs, .arr ys => sameItems xs ys
  | .obj ms, .obj ns => ms.length = ns.length && sameMembers ms ns
  | .null, .null => true
  | _, _ => false

def sameItems : List Value → List Value → Bool
  | [], [] => true
  | x :: xs, y :: ys => same x y && sameItems xs ys
  | _, _ => false

/-- Whether each member on the left has an equal one of its name on the right. -/
def sameMembers : List (String × Value) → List (String × Value) → Bool
  | [], _ => true
  | (name, value) :: rest, others =>
    (match Json.find? name others with
      | some other => same value other
      | none => false) && sameMembers rest others

end

instance : BEq Value := ⟨same⟩

end Value

end TypedStore
