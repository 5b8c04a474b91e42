/-
  TypedStore/Proofs/Value/Nodes.lean
  ==================================
  **What stands at each place in a value.**

  A step leads from an array to the element of an index and from an object to the member of a name
  (`Value.part?`), and a path from a value to a node in it. What stands there by itself is the scalar,
  or that there is an array or an object (`Value.node?`). So the nodes by their paths tell all of a value
  but the order of its members, and an argument over all values has one case, whatever the kind
  (`Value.part_induction`).
-/
import TypedStore.Proofs.Value.Floats
import TypedStore.Tagged.Path

namespace TypedStore.Value

variable {v u : Value} {step : Step} {x : Binary64}

/-! ### Parts -/

/-- The value that one step leads to. -/
def part? : Step → Value → Option Value
  | .index i, .arr items => items[i]?
  | .field name, .obj members => Json.find? name members
  | _, _ => none

theorem mem_of_part? (h : v.part? step = some u) :
    (∃ items, v = .arr items ∧ u ∈ items) ∨
      ∃ members name, v = .obj members ∧ (name, u) ∈ members := by
  unfold part? at h
  split at h
  · next i items => exact .inl ⟨items, rfl, List.mem_of_getElem? h⟩
  · next name members => exact .inr ⟨members, name, rfl, Json.mem_of_find?_eq_some h⟩
  · cases h

theorem sizeOf_lt_of_part? (h : v.part? step = some u) : sizeOf u < sizeOf v := by
  rcases mem_of_part? h with ⟨items, rfl, hmem⟩ | ⟨members, name, rfl, hmem⟩
  · have hlt := List.sizeOf_lt_of_mem hmem
    rw [arr.sizeOf_spec]
    omega
  · have hlt := List.sizeOf_lt_of_mem hmem
    rw [Prod.mk.sizeOf_spec] at hlt
    rw [obj.sizeOf_spec]
    omega

/-- What holds of a value if it holds of its parts holds of all values. -/
@[elab_as_elim]
theorem part_induction {motive : Value → Prop}
    (parts : ∀ v, (∀ step u, v.part? step = some u → motive u) → motive v) (v : Value) : motive v :=
  parts v fun _ u _ => part_induction parts u
termination_by v
decreasing_by exact sizeOf_lt_of_part? ‹_›

theorem distinctItems_iff {items : List Value} :
    DistinctItems items ↔ ∀ item ∈ items, item.Distinct := by
  induction items with
  | nil => exact iff_of_true trivial (List.forall_mem_nil _)
  | cons item rest ih => rw [DistinctItems, ih, List.forall_mem_cons]

theorem distinctMembers_iff {members : List (String × Value)} :
    DistinctMembers members ↔ ∀ m ∈ members, m.2.Distinct := by
  induction members with
  | nil => exact iff_of_true trivial (List.forall_mem_nil _)
  | cons m rest ih => rw [DistinctMembers, ih, List.forall_mem_cons]

theorem Distinct.part (hv : v.Distinct) (h : v.part? step = some u) : u.Distinct := by
  rcases mem_of_part? h with ⟨items, rfl, hmem⟩ | ⟨members, name, rfl, hmem⟩
  · exact distinctItems_iff.1 hv u hmem
  · exact distinctMembers_iff.1 hv.2 _ hmem

/-! ### Nodes -/

/-- The node without what is in its payload. -/
def bare : Value → Value
  | .arr _ => .arr []
  | .obj _ => .obj []
  | v => v

theorem kind_bare (v : Value) : v.bare.kind = v.kind := by cases v <;> rfl

theorem eq_f64_of_bare (h : v.bare = .f64 x) : v = .f64 x := by
  cases v with
  | arr items => cases h
  | obj members => cases h
  | _ => exact h

/-- The node at a place in the value, without what is in its payload. -/
def node? : NodePath → Value → Option Value
  | [], v => some v.bare
  | step :: path, v => (v.part? step).bind (node? path)

theorem mem_floats_of_part (h : v.part? step = some u) (hx : x ∈ u.floats) : x ∈ v.floats := by
  rcases mem_of_part? h with ⟨items, rfl, hmem⟩ | ⟨members, name, rfl, hmem⟩
  · exact mem_itemFloats_iff.2 ⟨u, hmem, hx⟩
  · exact mem_memberFloats_iff.2 ⟨(name, u), hmem, hx⟩

/-- A float is in a value if the value is that float or a part has it in it. Of a repeated name only
    the first member is a part. -/
theorem exists_part_of_mem_floats (hv : v.Distinct) (hx : x ∈ v.floats) :
    v = .f64 x ∨ ∃ step u, v.part? step = some u ∧ x ∈ u.floats := by
  cases v with
  | f64 y =>
    obtain rfl := List.mem_singleton.1 hx
    exact .inl rfl
  | arr items =>
    obtain ⟨item, hmem, hx⟩ := mem_itemFloats_iff.1 hx
    obtain ⟨i, hi⟩ := List.mem_iff_getElem?.1 hmem
    exact .inr ⟨.index i, item, hi, hx⟩
  | obj members =>
    obtain ⟨m, hmem, hx⟩ := mem_memberFloats_iff.1 hx
    exact .inr ⟨.field m.1, m.2, (Json.find?_eq_some_iff hv.1).2 hmem, hx⟩
  | _ => cases hx

/-- The floats in a value are those that stand at some place in it. -/
theorem mem_floats_iff (hv : v.Distinct) :
    x ∈ v.floats ↔ ∃ path, v.node? path = some (.f64 x) := by
  induction v using part_induction with
  | parts v ih =>
    constructor
    · intro hx
      rcases exists_part_of_mem_floats hv hx with rfl | ⟨step, u, hu, hx⟩
      · exact ⟨[], rfl⟩
      · obtain ⟨path, hpath⟩ := (ih step u hu (hv.part hu)).1 hx
        refine ⟨step :: path, ?_⟩
        rw [node?, hu, Option.bind_some, hpath]
    · rintro ⟨path, hpath⟩
      cases path with
      | nil =>
        obtain rfl := eq_f64_of_bare (Option.some.inj hpath)
        exact List.mem_singleton_self x
      | cons step path =>
        obtain ⟨u, hu, hnode⟩ := Option.bind_eq_some_iff.1 hpath
        exact mem_floats_of_part hu ((ih step u hu (hv.part hu)).2 ⟨path, hnode⟩)

end TypedStore.Value
