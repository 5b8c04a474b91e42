/-
  TypedStore/Proofs/Value/Floats.lean
  ===================================
  **The floats in a value.**

  The floats at any depth of a value, from left to right. The one that keeps a value from being stored
  is the first of them that is not finite (`nonFinite?_eq_some_iff`).
-/
import TypedStore.Value.Shape

namespace TypedStore.Value

mutual

/-- The floats in a value, from left to right. -/
def floats : Value → List Binary64
  | .f64 x => [x]
  | .arr items => itemFloats items
  | .obj members => memberFloats members
  | _ => []

def itemFloats : List Value → List Binary64
  | [] => []
  | item :: rest => floats item ++ itemFloats rest

def memberFloats : List (String × Value) → List Binary64
  | [] => []
  | (_, value) :: rest => floats value ++ memberFloats rest

end

variable {x : Binary64}

theorem mem_itemFloats_iff {items : List Value} :
    x ∈ itemFloats items ↔ ∃ item ∈ items, x ∈ item.floats := by
  induction items with
  | nil => simp [itemFloats]
  | cons item rest ih => simp only [itemFloats, List.mem_append, ih, List.mem_cons, exists_eq_or_imp]

theorem mem_memberFloats_iff {members : List (String × Value)} :
    x ∈ memberFloats members ↔ ∃ m ∈ members, x ∈ m.2.floats := by
  induction members with
  | nil => simp [memberFloats]
  | cons m rest ih => simp only [memberFloats, List.mem_append, ih, List.mem_cons, exists_eq_or_imp]

/-! ### The first that is not finite -/

mutual

theorem nonFinite?_eq_find? (v : Value) : v.nonFinite? = v.floats.find? (!·.isFinite) := by
  cases v with
  | f64 x =>
    rw [nonFinite?, floats]
    cases hx : x.isFinite <;> simp [hx]
  | arr items => rw [nonFinite?, floats, nonFiniteItem?_eq_find? items]
  | obj members => rw [nonFinite?, floats, nonFiniteMember?_eq_find? members]
  | _ => simp [nonFinite?, floats]

theorem nonFiniteItem?_eq_find? (items : List Value) :
    nonFiniteItem? items = (itemFloats items).find? (!·.isFinite) := by
  cases items with
  | nil => simp [nonFiniteItem?, itemFloats]
  | cons item rest =>
    rw [nonFiniteItem?, itemFloats, List.find?_append, nonFinite?_eq_find? item,
      nonFiniteItem?_eq_find? rest]

theorem nonFiniteMember?_eq_find? (members : List (String × Value)) :
    nonFiniteMember? members = (memberFloats members).find? (!·.isFinite) := by
  cases members with
  | nil => simp [nonFiniteMember?, memberFloats]
  | cons member rest =>
    obtain ⟨name, value⟩ := member
    rw [nonFiniteMember?, memberFloats, List.find?_append, nonFinite?_eq_find? value,
      nonFiniteMember?_eq_find? rest]

end

theorem nonFinite?_eq_some_iff {v : Value} {x : Binary64} :
    v.nonFinite? = some x ↔
      ∃ before after, v.floats = before ++ x :: after ∧ (∀ y ∈ before, y.isFinite) ∧
        ¬ x.isFinite := by
  rw [nonFinite?_eq_find?, List.find?_eq_some_iff_append]
  constructor
  · rintro ⟨hx, before, after, heq, hbefore⟩
    exact ⟨before, after, heq, by simpa using hbefore, by simpa using hx⟩
  · rintro ⟨before, after, heq, hbefore, hx⟩
    exact ⟨by simpa using hx, before, after, heq, by simpa using hbefore⟩

end TypedStore.Value
