/-
  TypedStore/Proofs/Codec/Grammar.lean
  ====================================
  **The trees of JSON that stand for values.**

  A node is an object of a tag and a payload, in either order: the payload of a scalar is of the type
  that its tag names, and an integer within its width; the payload of an array or an object consists of
  nodes, and not more than `maxDepth` of these stand within each other (`Json.IsNode`). Nothing in this
  is said by way of decoding.

  A node is tidy if its tag comes first and the payload of a float is a float; `Json.tidy` makes this of
  every node and leaves the rest of the tree as it is.
-/
import TypedStore.Proofs.Codec.RoundTrip
import TypedStore.Proofs.Codec.Rounding

namespace TypedStore

/-- The least integer of an integer kind, and the first one that is too great for it. -/
def Kind.bounds? : Kind → Option (Int × Int)
  | .i32 => some (-0x80000000, 0x80000000)
  | .u32 => some (0, 0x100000000)
  | .i64 => some (-0x8000000000000000, 0x8000000000000000)
  | .u64 => some (0, 0x10000000000000000)
  | _ => none

theorem Kind.ne_f64_of_bounds? {kind : Kind} {low high : Int}
    (h : kind.bounds? = some (low, high)) : kind ≠ .f64 := by
  rintro rfl
  cases h

/-- The float that a number of JSON writes is finite. -/
theorem Json.Number.isFinite_toBinary64 (n : Json.Number) : n.toBinary64.isFinite := by
  cases n with
  | float x => exact x.property
  | int n =>
    have hbounds := n.property
    have hlt := Binary64.nearestMagnitude_int_lt (show n.val.natAbs < 2 ^ 64 by omega)
    have hsign : Binary64.nearestMagnitude n.val.natAbs 1 < Binary64.signBit :=
      hlt.trans (by decide)
    rw [toBinary64, Binary64.isFinite, Binary64.magnitude_ofMagnitude _ hsign]
    exact decide_eq_true hlt

namespace Json

/-! ### Nodes -/

/-- The members of an object are the tag of a kind and a payload, in either order. -/
def Tags (members : List (String × Json)) (kind : Kind) (payload : Json) : Prop :=
  members.Perm [("t", .string kind.tag), ("v", payload)]

/-- The payloads of a scalar kind. -/
inductive IsScalar : Kind → Json → Prop where
  | int {kind : Kind} {low high : Int}
    {n : { n : Int // -0x8000000000000000 ≤ n ∧ n < 0x10000000000000000 }} :
    kind.bounds? = some (low, high) → low ≤ n.val → n.val < high →
      IsScalar kind (.number (.int n))
  | float (n : Number) : IsScalar .f64 (.number n)
  | bool (b : Bool) : IsScalar .bool (.bool b)
  | str (s : String) : IsScalar .str (.string s)
  | null : IsScalar .null .null

/-- The tree is a node that may stand within so many arrays and objects. -/
inductive IsNode : Nat → Json → Prop where
  | scalar {enclosing : Nat} {members : List (String × Json)} {kind : Kind} {payload : Json} :
    Tags members kind payload → IsScalar kind payload → IsNode enclosing (.object members)
  | arr {enclosing : Nat} {members : List (String × Json)} {items : List Json} :
    Tags members .arr (.array items) → enclosing < maxDepth →
      (∀ item ∈ items, IsNode (enclosing + 1) item) → IsNode enclosing (.object members)
  | obj {enclosing : Nat} {members : List (String × Json)} {fields : List (String × Json)} :
    Tags members .obj (.object fields) → enclosing < maxDepth →
      (∀ field ∈ fields, IsNode (enclosing + 1) field.2) → IsNode enclosing (.object members)

/-! ### Tidiness -/

def isFloatTag : Json → Bool
  | .string tag => tag = Kind.f64.tag
  | _ => false

mutual

/-- The tree with the tag of each node before its payload, and the payloads of floats as floats. -/
def tidy : Json → Json
  | .object [(a, x), (b, y)] =>
    if a = "t" then .object [(a, x), (b, tidyPayload x.isFloatTag y)]
    else .object [(b, y), (a, tidyPayload y.isFloatTag x)]
  | other => other

def tidyPayload (float : Bool) : Json → Json
  | .number n =>
    if float then .number (.float ⟨n.toBinary64, n.isFinite_toBinary64⟩) else .number n
  | .array items => .array (tidyItems items)
  | .object members => .object (tidyMembers members)
  | other => other

def tidyItems : List Json → List Json
  | [] => []
  | item :: rest => tidy item :: tidyItems rest

def tidyMembers : List (String × Json) → List (String × Json)
  | [] => []
  | (name, member) :: rest => (name, tidy member) :: tidyMembers rest

end

theorem tidy_of_tags {members : List (String × Json)} {kind : Kind} {payload : Json}
    (h : Tags members kind payload) :
    (Json.object members).tidy = Json.node kind (tidyPayload (kind = .f64) payload) := by
  have hfloat : isFloatTag (.string kind.tag) = decide (kind = .f64) := by
    cases kind <;> decide
  rcases List.perm_pair.1 h with rfl | rfl
  · rw [tidy, if_pos rfl, hfloat]
    rfl
  · rw [tidy, if_neg (by decide), hfloat]
    rfl

/-- The payload of a scalar stays one. -/
theorem IsScalar.tidy {kind : Kind} {payload : Json} (h : IsScalar kind payload) :
    IsScalar kind (tidyPayload (kind = .f64) payload) := by
  cases h with
  | int hbounds hlow hhigh =>
    simp only [Kind.ne_f64_of_bounds? hbounds, decide_false, tidyPayload]
    exact .int hbounds hlow hhigh
  | float n => exact .float _
  | bool b => exact .bool b
  | str s => exact .str s
  | null => exact .null

end Json

namespace Value

open Json (IsScalar)

variable {kind : Kind} {payload : Json} {v : Value}
  {n : { n : Int // -0x8000000000000000 ≤ n ∧ n < 0x10000000000000000 }}

/-! ### Scalars -/

theorem ofInt_eq {m : Int} (h : m = n.val)
    (hm : -0x8000000000000000 ≤ m ∧ m < 0x10000000000000000) : Json.ofInt m hm = .number (.int n) := by
  subst h
  rfl

/-- An integer that fits the width of a kind is written again as it was. -/
theorem bounded_of_ofInt? (h : ofInt? n.val kind = some v) :
    (∃ low high, kind.bounds? = some (low, high) ∧ low ≤ n.val ∧ n.val < high) ∧
      v.kind = kind ∧ v.encodePayload = .number (.int n) := by
  cases kind with
  | i32 =>
    obtain ⟨hbounds, hv⟩ := Option.ite_none_right_eq_some.1 h
    cases hv
    exact ⟨⟨_, _, rfl, hbounds⟩, rfl, ofInt_eq (Int32.toInt_ofInt_of_le hbounds.1 hbounds.2) _⟩
  | i64 =>
    obtain ⟨hbounds, hv⟩ := Option.ite_none_right_eq_some.1 h
    cases hv
    exact ⟨⟨_, _, rfl, hbounds⟩, rfl, ofInt_eq (Int64.toInt_ofInt_of_le hbounds.1 hbounds.2) _⟩
  | u32 =>
    obtain ⟨hbounds, hv⟩ := Option.ite_none_right_eq_some.1 h
    cases hv
    have hnat : n.val.toNat < 2 ^ 32 := by omega
    refine ⟨⟨_, _, rfl, hbounds⟩, rfl, ofInt_eq ?_ _⟩
    rw [UInt32.toNat_ofNat_of_lt' hnat, Int.toNat_of_nonneg hbounds.1]
  | u64 =>
    obtain ⟨hbounds, hv⟩ := Option.ite_none_right_eq_some.1 h
    cases hv
    have hnat : n.val.toNat < 2 ^ 64 := by omega
    refine ⟨⟨_, _, rfl, hbounds⟩, rfl, ofInt_eq ?_ _⟩
    rw [UInt64.toNat_ofNat_of_lt' hnat, Int.toNat_of_nonneg hbounds.1]
  | _ => cases h

theorem exists_ofInt? {low high : Int} (h : kind.bounds? = some (low, high)) (hlow : low ≤ n.val)
    (hhigh : n.val < high) : ∃ v, ofInt? n.val kind = some v := by
  cases kind with
  | i32 | u32 | i64 | u64 =>
    cases h
    exact ⟨_, if_pos ⟨hlow, hhigh⟩⟩
  | _ => cases h

theorem ofPayload_cases (h : ofPayload kind payload = .ok v) :
    (∃ n, payload = .number (.int n) ∧ ofInt? n.val kind = some v) ∨
    (kind = .f64 ∧ ∃ n, payload = .number n ∧ v = .f64 n.toBinary64) ∨
    (kind = .bool ∧ ∃ b, payload = .bool b ∧ v = .bool b) ∨
    (kind = .str ∧ ∃ s, payload = .string s ∧ v = .str s) ∨
    (kind = .null ∧ payload = .null ∧ v = .null) := by
  have hint : ∀ {n kind}, (ofInt? n kind).elim (.error (ShapeFault.outOfRange kind n)) Except.ok =
      .ok v → ofInt? n kind = some v := by
    intro n kind helim
    cases hmade : ofInt? n kind with
    | none => simp [hmade] at helim
    | some made =>
      rw [hmade] at helim
      cases helim
      rfl
  unfold ofPayload at h
  split at h
  · cases h
  · cases h
  · cases h
    exact .inr (.inr (.inr (.inr ⟨rfl, rfl, rfl⟩)))
  · cases h
    exact .inr (.inr (.inl ⟨rfl, _, rfl, rfl⟩))
  · cases h
    exact .inr (.inr (.inr (.inl ⟨rfl, _, rfl, rfl⟩)))
  · cases h
    exact .inr (.inl ⟨rfl, _, rfl, rfl⟩)
  · exact .inl ⟨_, rfl, hint h⟩
  · exact .inl ⟨_, rfl, hint h⟩
  · exact .inl ⟨_, rfl, hint h⟩
  · exact .inl ⟨_, rfl, hint h⟩
  · cases h

/-- What makes a scalar is in the grammar, and is written again from it. -/
theorem isScalar_of_ofPayload (h : ofPayload kind payload = .ok v) :
    IsScalar kind payload ∧ v.kind = kind ∧
      v.encodePayload = Json.tidyPayload (kind = .f64) payload := by
  rcases ofPayload_cases h with ⟨n, rfl, hmade⟩ | ⟨rfl, n, rfl, rfl⟩ | ⟨rfl, b, rfl, rfl⟩ |
    ⟨rfl, s, rfl, rfl⟩ | ⟨rfl, rfl, rfl⟩
  · obtain ⟨⟨low, high, hbounds, hlow, hhigh⟩, hkind, hpayload⟩ := bounded_of_ofInt? hmade
    refine ⟨.int hbounds hlow hhigh, hkind, ?_⟩
    simp [hpayload, Json.tidyPayload, Kind.ne_f64_of_bounds? hbounds]
  · refine ⟨.float n, rfl, ?_⟩
    rw [encodePayload_f64, Json.ofFloat, dif_pos n.isFinite_toBinary64]
    rfl
  · exact ⟨.bool b, rfl, rfl⟩
  · exact ⟨.str s, rfl, rfl⟩
  · exact ⟨.null, rfl, rfl⟩

/-- Every payload of the grammar makes a scalar. -/
theorem ofPayload_of_isScalar (h : IsScalar kind payload) : ∃ v, ofPayload kind payload = .ok v := by
  cases h with
  | int hbounds hlow hhigh =>
    obtain ⟨v, hv⟩ := exists_ofInt? hbounds hlow hhigh
    exact ⟨v, ofPayload_ofInt _ hv⟩
  | float n => exact ⟨_, rfl⟩
  | bool b => exact ⟨_, rfl⟩
  | str s => exact ⟨_, rfl⟩
  | null => exact ⟨_, rfl⟩

theorem isComposite_of_ofPayload (h : ofPayload kind payload = .ok v) :
    kind.isComposite = false := by
  cases kind with
  | arr => cases h
  | obj => cases h
  | _ => rfl

end Value

end TypedStore
