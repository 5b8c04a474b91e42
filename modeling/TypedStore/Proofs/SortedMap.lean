/-
  TypedStore/Proofs/SortedMap.lean
  ================================
  **Maps as lists of entries.**

  A map that is built entry by entry holds the last value of each key (`get?_ofList`), and the
  entries of a map build that map again (`ofList_toList`); some of them are determined by their
  look-ups (`filter_toList_congr`). As a function from keys a map is updated
  by its operations, and each of them is undone by another that puts back what was under the key.
  The listing of its keys repeats none (`nodup_keys`).
-/
import Mathlib.Logic.Function.Basic
import TypedStore.SortedMap

namespace TypedStore.SortedMap

variable {κ : Type u} {α : Type v} [Ord κ] [Std.TransOrd κ] [Std.LawfulEqOrd κ] [DecidableEq κ]

theorem get?_foldl_insert (l : List (κ × α)) (m : SortedMap κ α) (k : κ) :
    (l.foldl (fun m e => m.insert e.1 e.2) m).get? k =
      ((l.reverse.find? (·.1 = k)).map (·.2)).or (m.get? k) := by
  induction l generalizing m with
  | nil => simp
  | cons e rest ih =>
    rw [List.foldl_cons, ih, get?_insert, List.reverse_cons, List.find?_append]
    by_cases h : k = e.1
    · cases rest.reverse.find? (·.1 = k) <;> simp [h]
    · have h' : ¬ e.1 = k := fun heq => h heq.symm
      cases rest.reverse.find? (·.1 = k) <;> simp [h, h']

theorem get?_ofList (l : List (κ × α)) (k : κ) :
    (ofList l).get? k = (l.reverse.find? (·.1 = k)).map (·.2) := by
  rw [ofList, get?_foldl_insert, get?_empty, Option.or_none]

/-- The entries of a map build the map. -/
theorem ofList_toList (m : SortedMap κ α) : ofList m.toList = m := by
  apply ext
  intro k
  rw [get?_ofList]
  cases hfind : m.toList.reverse.find? (·.1 = k) with
  | none =>
    cases hget : m.get? k with
    | none => rfl
    | some v =>
      have hmem : (k, v) ∈ m.toList.reverse := List.mem_reverse.2 (mem_toList_iff.2 hget)
      exact absurd (List.find?_eq_none.1 hfind _ hmem) (by simp)
  | some e =>
    have hkey : e.1 = k := by simpa using List.find?_some hfind
    have hmem : e ∈ m.toList := List.mem_reverse.1 (List.mem_of_find?_eq_some hfind)
    have hget : m.get? e.1 = some e.2 := mem_toList_iff.1 hmem
    rw [← hkey, hget]
    rfl

omit [DecidableEq κ] in
/-- The entries under some of the keys are determined by the look-ups of these. -/
theorem filter_toList_congr {m n : SortedMap κ α} {p : κ → Bool}
    (h : ∀ k, p k → m.get? k = n.get? k) :
    m.toList.filter (fun e => p e.1) = n.toList.filter (fun e => p e.1) := by
  have hmaps : (⟨_, m.ascending.filter fun e => p e.1⟩ : SortedMap κ α) =
      ⟨_, n.ascending.filter fun e => p e.1⟩ := by
    apply ext
    intro k
    apply Option.ext
    intro v
    rw [← mem_toList_iff, ← mem_toList_iff, List.mem_filter, List.mem_filter, mem_toList_iff,
      mem_toList_iff]
    exact and_congr_left fun hk => by rw [h k hk]
  exact congrArg toList hmaps

/-! ### Maps as functions -/

theorem get?_insert_eq (m : SortedMap κ α) (k : κ) (v : α) :
    (m.insert k v).get? = Function.update m.get? k (some v) := by
  funext j
  rw [get?_insert, Function.update_apply]

theorem get?_erase_eq (m : SortedMap κ α) (k : κ) :
    (m.erase k).get? = Function.update m.get? k none := by
  funext j
  rw [get?_erase, Function.update_apply]

/-- A map without a key stays as it is when the key is taken away. -/
theorem erase_eq_self {m : SortedMap κ α} {k : κ} (h : m.get? k = none) : m.erase k = m := by
  apply ext
  intro j
  rw [get?_erase]
  split
  · next heq => rw [heq, h]
  · rfl

/-! ### Changes that are taken back -/

theorem insert_insert_of_get? {m : SortedMap κ α} {k : κ} {old : α} (h : m.get? k = some old)
    (v : α) : (m.insert k v).insert k old = m := by
  apply ext
  apply congrFun
  rw [get?_insert_eq, get?_insert_eq, Function.update_idem, ← h, Function.update_eq_self]

theorem erase_insert_of_get? {m : SortedMap κ α} {k : κ} (h : m.get? k = none) (v : α) :
    (m.insert k v).erase k = m := by
  apply ext
  apply congrFun
  rw [get?_erase_eq, get?_insert_eq, Function.update_idem, ← h, Function.update_eq_self]

theorem insert_erase_of_get? {m : SortedMap κ α} {k : κ} {old : α} (h : m.get? k = some old) :
    (m.erase k).insert k old = m := by
  apply ext
  apply congrFun
  rw [get?_insert_eq, get?_erase_eq, Function.update_idem, ← h, Function.update_eq_self]

/-! ### Listings -/

omit [Std.TransOrd κ] [DecidableEq κ] in
theorem nodup_keys (m : SortedMap κ α) : m.keys.Nodup := by
  refine List.Pairwise.map _ ?_ m.ascending
  intro a b hlt heq
  have hself : compare b.1 b.1 = .eq := Std.ReflCmp.compare_self
  rw [heq, hself] at hlt
  cases hlt

omit [Std.TransOrd κ] [Std.LawfulEqOrd κ] [DecidableEq κ] in
theorem length_keys (m : SortedMap κ α) : m.keys.length = m.size := List.length_map _

omit [Std.TransOrd κ] [Std.LawfulEqOrd κ] [DecidableEq κ] in
theorem eq_empty_of_isEmpty {m : SortedMap κ α} (h : m.isEmpty) : m = .empty := by
  obtain ⟨entries, hascending⟩ := m
  obtain rfl : entries = [] := List.isEmpty_iff.1 h
  rfl

end TypedStore.SortedMap
