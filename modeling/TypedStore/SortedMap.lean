/-
  TypedStore/SortedMap.lean
  =========================
  **Finite maps kept in ascending order of their keys.**

  A `SortedMap κ α` is a list of entries whose keys ascend strictly, so a map has one
  representation only: two maps with the same look-ups are equal (`SortedMap.ext`), and a listing
  of the keys is sorted and free of repetitions. The file formats, the memory medium and the lock
  table are all built on it.

  Main statements:
  * `get?_insert`, `get?_erase`, `get?_empty`: each operation, seen through look-ups;
  * `mem_toList_iff`: an entry is listed iff it is looked up;
  * `ext`: look-ups determine the map.
-/

namespace TypedStore

/-- A finite map from `κ` to `α`, held as the list of its entries in ascending key order. -/
structure SortedMap (κ : Type u) (α : Type v) [Ord κ] where
  /-- The entries, in ascending order of their keys. -/
  toList : List (κ × α)
  /-- No key is repeated and none is out of place. -/
  ascending : toList.Pairwise (fun a b => compare a.1 b.1 = .lt)

namespace SortedMap

variable {κ : Type u} {α : Type v} [Ord κ]

instance [DecidableEq κ] [DecidableEq α] : DecidableEq (SortedMap κ α) := fun m n =>
  decidable_of_iff (m.toList = n.toList) (by cases m; cases n; simp)

/-! ### Entry lists -/

def lookup (k : κ) : List (κ × α) → Option α
  | [] => none
  | (k', v) :: rest => if compare k k' = .eq then some v else lookup k rest

/-- Put an entry at its place, replacing one with the same key. -/
def insertEntry (k : κ) (v : α) : List (κ × α) → List (κ × α)
  | [] => [(k, v)]
  | (k', v') :: rest =>
    match compare k k' with
    | .lt => (k, v) :: (k', v') :: rest
    | .eq => (k, v) :: rest
    | .gt => (k', v') :: insertEntry k v rest

theorem key_of_mem_insertEntry {k : κ} {v : α} {e : κ × α} :
    {l : List (κ × α)} → e ∈ insertEntry k v l → e = (k, v) ∨ e ∈ l
  | [], h => by simpa [insertEntry] using h
  | (k', v') :: rest, h => by
    unfold insertEntry at h
    split at h
    · simpa using h
    · rcases List.mem_cons.1 h with h | h
      · exact .inl h
      · exact .inr (List.mem_cons_of_mem _ h)
    · rcases List.mem_cons.1 h with h | h
      · exact .inr (h ▸ List.mem_cons_self ..)
      · exact (key_of_mem_insertEntry h).imp id (List.mem_cons_of_mem _)

section Laws

variable [Std.TransOrd κ] [Std.LawfulEqOrd κ]

theorem ascending_insertEntry (k : κ) (v : α) :
    {l : List (κ × α)} → l.Pairwise (fun a b => compare a.1 b.1 = .lt) →
      (insertEntry k v l).Pairwise (fun a b => compare a.1 b.1 = .lt)
  | [], _ => by simp [insertEntry]
  | (k', v') :: rest, h => by
    obtain ⟨hk, hr⟩ := List.pairwise_cons.1 h
    unfold insertEntry
    split
    next hlt =>
      refine List.pairwise_cons.2 ⟨fun e he => ?_, h⟩
      rcases List.mem_cons.1 he with rfl | he
      · exact hlt
      · exact Std.TransCmp.lt_trans hlt (hk e he)
    next heq =>
      obtain rfl := Std.LawfulEqCmp.eq_of_compare heq
      exact List.pairwise_cons.2 ⟨hk, hr⟩
    next hgt =>
      refine List.pairwise_cons.2 ⟨fun e he => ?_, ascending_insertEntry k v hr⟩
      rcases key_of_mem_insertEntry he with rfl | he
      · exact Std.OrientedCmp.lt_of_gt hgt
      · exact hk e he

omit [Std.TransOrd κ] in
theorem lookup_insertEntry (k j : κ) (v : α) (l : List (κ × α)) :
    lookup j (insertEntry k v l) = if compare j k = .eq then some v else lookup j l := by
  induction l with
  | nil => simp [insertEntry, lookup]
  | cons e rest ih =>
    obtain ⟨k', v'⟩ := e
    unfold insertEntry
    split
    next => simp [lookup]
    next heq =>
      obtain rfl := Std.LawfulEqCmp.eq_of_compare heq
      by_cases h : compare j k = .eq <;> simp [lookup, h]
    next hgt =>
      by_cases h : compare j k' = .eq
      · obtain rfl := Std.LawfulEqCmp.eq_of_compare h
        have : compare j k ≠ .eq := by
          intro hjk
          obtain rfl := Std.LawfulEqCmp.eq_of_compare hjk
          simp at hgt
        simp [lookup, this]
      · simp [lookup, h, ih]

omit [Std.TransOrd κ] [Std.LawfulEqOrd κ] in
theorem lookup_eq_none {k : κ} {l : List (κ × α)} (h : ∀ e ∈ l, compare k e.1 = .lt) :
    lookup k l = none := by
  induction l with
  | nil => rfl
  | cons e rest ih =>
    have he : compare k e.1 ≠ .eq := by rw [h e (List.mem_cons_self ..)]; decide
    simp [lookup, he, ih fun e' he' => h e' (List.mem_cons_of_mem _ he')]

theorem lookup_filter_ne (k j : κ) (l : List (κ × α)) :
    lookup j (l.filter fun e => compare k e.1 != .eq) =
      if compare k j = .eq then none else lookup j l := by
  induction l with
  | nil => simp [lookup]
  | cons e rest ih =>
    obtain ⟨k', v'⟩ := e
    by_cases h : compare k k' = .eq
    · obtain rfl := Std.LawfulEqCmp.eq_of_compare h
      simp only [List.filter_cons, Std.ReflCmp.compare_self, bne_self_eq_false, Bool.false_eq_true,
        ↓reduceIte, ih, lookup]
      by_cases hj : compare k j = .eq
      · simp [hj]
      · have : compare j k ≠ .eq := fun h' => hj (Std.OrientedCmp.eq_symm h')
        simp [hj, this]
    · have hb : (compare k k' != .eq) = true := by simpa using h
      simp only [List.filter_cons, hb, ↓reduceIte, lookup, ih]
      by_cases hj : compare j k' = .eq
      · obtain rfl := Std.LawfulEqCmp.eq_of_compare hj
        simp [h]
      · simp [hj]

omit [Std.TransOrd κ] in
theorem mem_iff_lookup {l : List (κ × α)} (h : l.Pairwise (fun a b => compare a.1 b.1 = .lt))
    {k : κ} {v : α} : (k, v) ∈ l ↔ lookup k l = some v := by
  induction l with
  | nil => simp [lookup]
  | cons e rest ih =>
    obtain ⟨k', v'⟩ := e
    obtain ⟨hk, hr⟩ := List.pairwise_cons.1 h
    by_cases hkk : compare k k' = .eq
    · obtain rfl := Std.LawfulEqCmp.eq_of_compare hkk
      have hnot : (k, v) ∉ rest := fun hm => by simpa using hk _ hm
      simp [lookup, hnot, eq_comm]
    · have hne : k ≠ k' := fun he => hkk (he ▸ Std.ReflCmp.compare_self)
      simp [lookup, hkk, hne, ih hr]

end Laws

/-! ### Maps -/

def empty : SortedMap κ α := ⟨[], .nil⟩

instance : Inhabited (SortedMap κ α) := ⟨empty⟩

def get? (m : SortedMap κ α) (k : κ) : Option α := lookup k m.toList

def contains (m : SortedMap κ α) (k : κ) : Bool := (m.get? k).isSome

def size (m : SortedMap κ α) : Nat := m.toList.length

def isEmpty (m : SortedMap κ α) : Bool := m.toList.isEmpty

def keys (m : SortedMap κ α) : List κ := m.toList.map (·.1)

def erase (m : SortedMap κ α) (k : κ) : SortedMap κ α :=
  ⟨m.toList.filter fun e => compare k e.1 != .eq, m.ascending.filter _⟩

theorem get?_empty (k : κ) : (empty : SortedMap κ α).get? k = none := rfl

variable [Std.TransOrd κ] [Std.LawfulEqOrd κ]

/-- The map with `v` under `k`, whatever was there before. -/
def insert (m : SortedMap κ α) (k : κ) (v : α) : SortedMap κ α :=
  ⟨insertEntry k v m.toList, ascending_insertEntry k v m.ascending⟩

/-- The map of a list of entries, where a later entry replaces an earlier one of the same key. -/
def ofList (l : List (κ × α)) : SortedMap κ α :=
  l.foldl (fun m e => m.insert e.1 e.2) empty

/-! ### The operations, seen through look-ups -/

theorem get?_insert [DecidableEq κ] (m : SortedMap κ α) (k j : κ) (v : α) :
    (m.insert k v).get? j = if j = k then some v else m.get? j := by
  simp [get?, insert, lookup_insertEntry, Std.LawfulEqCmp.compare_eq_iff_eq]

theorem get?_erase [DecidableEq κ] (m : SortedMap κ α) (k j : κ) :
    (m.erase k).get? j = if j = k then none else m.get? j := by
  simp only [get?, erase, lookup_filter_ne, Std.LawfulEqCmp.compare_eq_iff_eq]
  simp only [eq_comm]

omit [Std.TransOrd κ] in
theorem mem_toList_iff {m : SortedMap κ α} {k : κ} {v : α} :
    (k, v) ∈ m.toList ↔ m.get? k = some v :=
  mem_iff_lookup m.ascending

omit [Std.TransOrd κ] in
theorem mem_keys_iff {m : SortedMap κ α} {k : κ} : k ∈ m.keys ↔ (m.get? k).isSome := by
  constructor
  · intro h
    obtain ⟨e, he, rfl⟩ := List.mem_map.1 h
    rw [mem_toList_iff.1 (show (e.1, e.2) ∈ m.toList from he)]
    rfl
  · intro h
    obtain ⟨v, hv⟩ := Option.isSome_iff_exists.1 h
    exact List.mem_map.2 ⟨(k, v), mem_toList_iff.2 hv, rfl⟩

/-- Look-ups determine the map. -/
theorem ext {m n : SortedMap κ α} (h : ∀ k, m.get? k = n.get? k) : m = n := by
  have key : ∀ {l r : List (κ × α)}, l.Pairwise (fun a b => compare a.1 b.1 = .lt) →
      r.Pairwise (fun a b => compare a.1 b.1 = .lt) →
      (∀ k, lookup k l = lookup k r) → l = r := by
    intro l
    induction l with
    | nil =>
      intro r _ _ h
      cases r with
      | nil => rfl
      | cons e r => simpa [lookup] using h e.1
    | cons e l ih =>
      intro r hl hr h
      cases r with
      | nil => simpa [lookup] using h e.1
      | cons f r =>
        obtain ⟨hel, hl'⟩ := List.pairwise_cons.1 hl
        obtain ⟨hfr, hr'⟩ := List.pairwise_cons.1 hr
        have hef : compare e.1 f.1 = .eq := by
          match hc : compare e.1 f.1 with
          | .eq => rfl
          | .lt =>
            have hnone : lookup e.1 (f :: r) = none := lookup_eq_none fun g hg => by
              rcases List.mem_cons.1 hg with rfl | hg
              · exact hc
              · exact Std.TransCmp.lt_trans hc (hfr g hg)
            have hk := h e.1
            rw [hnone] at hk; simp [lookup] at hk
          | .gt =>
            have hc' := Std.OrientedCmp.lt_of_gt hc
            have hnone : lookup f.1 (e :: l) = none := lookup_eq_none fun g hg => by
              rcases List.mem_cons.1 hg with rfl | hg
              · exact hc'
              · exact Std.TransCmp.lt_trans hc' (hel g hg)
            have hk := h f.1
            rw [hnone] at hk; simp [lookup] at hk
        have hkey : e.1 = f.1 := Std.LawfulEqCmp.eq_of_compare hef
        have hval : e.2 = f.2 := by simpa [lookup, hef] using h e.1
        have htail : l = r := by
          refine ih hl' hr' fun k => ?_
          by_cases hk : compare k e.1 = .eq
          · obtain rfl := Std.LawfulEqCmp.eq_of_compare hk
            rw [lookup_eq_none hel, lookup_eq_none (hkey ▸ hfr)]
          · simpa [lookup, hk, ← hkey] using h k
        rw [htail, Prod.ext hkey hval]
  obtain ⟨l, hl⟩ := m
  obtain ⟨r, hr⟩ := n
  obtain rfl : l = r := key hl hr h
  rfl

end SortedMap

end TypedStore
