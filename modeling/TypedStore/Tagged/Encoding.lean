/-
  TypedStore/Tagged/Encoding.lean
  ===============================
  **Values as tagged JSON.**

  Every node of a value becomes an object of two members: `t` with the tag of its kind and `v`
  with the payload. The payload of an array holds a node for each element, the payload of an
  object a node for each member. Encoding is total: a float that is not finite has no number in
  JSON and gets the payload `null`; stores refuse such values before they encode.

  The length that a store bounds is that of the string, for a string, and of the payload's text
  for any other value. `storedLength` reads it off the text of the whole node.
-/
import TypedStore.Bytes.Utf8
import TypedStore.Json.Printer
import TypedStore.Value.Basic

namespace TypedStore

/-- An integer of sixty-four bits as a number of JSON. -/
def Json.ofInt (n : Int) (h : -0x8000000000000000 ≤ n ∧ n < 0x10000000000000000) : Json :=
  .number (.int ⟨n, h⟩)

/-- A float as a number of JSON; null stands for one that is not finite. -/
def Json.ofFloat (x : Binary64) : Json :=
  if h : x.isFinite then .number (.float ⟨x, h⟩) else .null

def Json.node (kind : Kind) (payload : Json) : Json :=
  .object [("t", .string kind.tag), ("v", payload)]

namespace Value

mutual

/-- The payload of the node that stands for a value. -/
def encodePayload : Value → Json
  | .i32 n => .ofInt n.toInt (by have := n.toInt_lt; have := n.le_toInt; omega)
  | .u32 n => .ofInt n.toNat (by have := n.toNat_lt; omega)
  | .i64 n => .ofInt n.toInt (by have := n.toInt_lt; have := n.le_toInt; omega)
  | .u64 n => .ofInt n.toNat (by have := n.toNat_lt; omega)
  | .f64 x => .ofFloat x
  | .bool b => .bool b
  | .str s => .string s
  | .arr items => .array (encodeItems items)
  | .obj members => .object (encodeMembers members)
  | .null => .null

def encodeItems : List Value → List Json
  | [] => []
  | item :: rest => Json.node item.kind (encodePayload item) :: encodeItems rest

def encodeMembers : List (String × Value) → List (String × Json)
  | [] => []
  | (name, value) :: rest =>
    (name, Json.node value.kind (encodePayload value)) :: encodeMembers rest

end

def encode (v : Value) : Json := Json.node v.kind v.encodePayload

def encoding (v : Value) : String := v.encode.text

/-! ### Length -/

/-- The length of a value whose node has the given text. What stands around the payload in it is
    `{"t":"`, the tag, `","v":` and `}`. -/
def storedLength (v : Value) (encoding : String) : Nat :=
  match v with
  | .str s => (Utf8.encode s).length
  | other => (Utf8.encode encoding).length - (6 + (Utf8.encode other.kind.tag).length + 6 + 1)

def length (v : Value) : Nat := v.storedLength v.encoding

end Value

end TypedStore
