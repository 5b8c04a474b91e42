/-
  TypedStore/Proofs/Disk/Regions.lean
  ===================================
  **What file operations see of a disk.**

  A file operation looks at the places that its paths lead through, and at the places that they lead
  to with what is below them. On two disks that are the same at all of these places, it has the same
  result, and the disks are the same there afterwards too (`rename_alike` and its like). What a path
  leads through and to are the conditions of `Covers`.
-/
import TypedStore.Proofs.Disk.Directories

namespace TypedStore.Disk

/-- The two disks are the same at the places of a region. -/
def AgreeOn (region : Place → Prop) (disk other : Disk) : Prop :=
  ∀ place, region place → disk.lookup? place = other.lookup? place

/-- Following the path from a place leads through the region only. -/
def Through (region : Place → Prop) : Place → Path → Prop
  | _, [] => True
  | place, part :: rest => region place ∧ Through region (Path.advance place part) rest

/-- The path leads through the region, to a place that is in it with all that is below. -/
structure Covers (region : Place → Prop) (path : Path) : Prop where
  through : Through region [] path
  tree : ∀ place, path.place <+: place → region place

variable {region : Place → Prop} {disk other : Disk} {path source target : Path}

theorem AgreeOn.refl (region : Place → Prop) (disk : Disk) : AgreeOn region disk disk :=
  fun _ _ => rfl

theorem AgreeOn.symm (h : AgreeOn region disk other) : AgreeOn region other disk :=
  fun place hplace => (h place hplace).symm

theorem AgreeOn.trans {a b c : Disk} (hab : AgreeOn region a b) (hbc : AgreeOn region b c) :
    AgreeOn region a c :=
  fun place hplace => (hab place hplace).trans (hbc place hplace)

theorem Covers.place (h : Covers region path) : region path.place := h.tree _ List.prefix_rfl

/-! ### Looking -/

theorem follow_congr (h : AgreeOn region disk other) {place : Place} (hplace : region place)
    (part : String) : disk.follow place part = other.follow place part := by
  rw [follow, follow, h place hplace]

theorem foldlM_follow_congr (h : AgreeOn region disk other) {place : Place}
    (hpath : Through region place path) :
    path.foldlM disk.follow place = path.foldlM other.follow place := by
  induction path generalizing place with
  | nil => rfl
  | cons part rest ih =>
    obtain ⟨hplace, hrest⟩ := hpath
    rw [List.foldlM_cons, List.foldlM_cons, ← follow_congr h hplace part]
    cases hfollow : disk.follow place part with
    | error fault => rfl
    | ok next =>
      obtain ⟨-, -, rfl⟩ := follow_eq_ok_iff.1 hfollow
      exact ih hrest

theorem locate_congr (h : AgreeOn region disk other) (hpath : Through region [] path) :
    disk.locate path = other.locate path := by
  rw [locate, locate, foldlM_follow_congr h hpath]

theorem reaches_congr (h : AgreeOn region disk other) (hpath : Through region [] path) :
    disk.Reaches path ↔ other.Reaches path := by
  have hlocate (d : Disk) : d.Reaches path ↔ d.locate path = .ok path.place := by
    rw [locate_eq_ok_iff, and_iff_left rfl]
  rw [hlocate, hlocate, locate_congr h hpath]

theorem find_congr (h : AgreeOn region disk other) (hpath : Covers region path) :
    disk.find path = other.find path := by
  rw [find, find, ← locate_congr h hpath.through]
  cases hlocate : disk.locate path with
  | error fault => rfl
  | ok place =>
    obtain ⟨-, rfl⟩ := locate_eq_ok_iff.1 hlocate
    exact congrArg Except.ok (h _ hpath.place)

theorem contains_congr (h : AgreeOn region disk other) (hpath : Covers region path) :
    disk.contains path = other.contains path := by
  rw [contains, contains, find_congr h hpath]

theorem read_congr (h : AgreeOn region disk other) (hpath : Covers region path) :
    disk.read path = other.read path := by
  rw [read, read, find_congr h hpath]

/-! ### Writing and removing -/

theorem AgreeOn.set (h : AgreeOn region disk other) (place : Place) (entry : Entry) :
    AgreeOn region (disk.set place entry) (other.set place entry) := by
  intro at_ hat
  by_cases hroot : at_ = []
  · rw [hroot, lookup?_root, lookup?_root]
  · rw [lookup?_set _ _ _ _ hroot, lookup?_set _ _ _ _ hroot, h at_ hat]

theorem AgreeOn.unset (h : AgreeOn region disk other) (place : Place) :
    AgreeOn region (disk.unset place) (other.unset place) := by
  intro at_ hat
  by_cases hroot : at_ = []
  · rw [hroot, lookup?_root, lookup?_root]
  · rw [lookup?_unset _ _ _ hroot, lookup?_unset _ _ _ hroot, h at_ hat]

theorem write_alike (h : AgreeOn region disk other) (hpath : Covers region path) (bytes : Bytes) :
    Except.Alike (AgreeOn region) (disk.write path bytes) (other.write path bytes) := by
  rw [write, write, ← locate_congr h hpath.through]
  cases hlocate : disk.locate path with
  | error fault => exact .error fault
  | ok place =>
    obtain ⟨-, rfl⟩ := locate_eq_ok_iff.1 hlocate
    simp only [Except.ok_bind, ← h _ hpath.place]
    split
    · exact .error _
    · exact .ok (h.set _ _)

theorem remove_alike (h : AgreeOn region disk other) (hpath : Covers region path) :
    Except.Alike (AgreeOn region) (disk.remove path) (other.remove path) := by
  rw [remove, remove, ← locate_congr h hpath.through]
  cases hlocate : disk.locate path with
  | error fault => exact .error fault
  | ok place =>
    obtain ⟨-, rfl⟩ := locate_eq_ok_iff.1 hlocate
    simp only [Except.ok_bind, ← h _ hpath.place]
    split
    · exact .error _
    · exact .error _
    · exact .ok (h.unset _)

/-! ### Moving trees -/

theorem entries_get?_congr (h : AgreeOn region disk other) {place : Place} (hroot : place ≠ [])
    (hplace : region place) : disk.entries.get? place = other.entries.get? place := by
  have hlookup := h place hplace
  rwa [lookup?, lookup?, if_neg hroot, if_neg hroot] at hlookup

theorem below_congr (h : AgreeOn region disk other) {place : Place}
    (htree : ∀ at_, place <+: at_ → region at_) : disk.below place = other.below place := by
  refine SortedMap.filter_toList_congr (p := fun at_ => place <+: at_ ∧ place ≠ at_) ?_
  intro at_ hat
  obtain ⟨hbelow, hne⟩ : place <+: at_ ∧ place ≠ at_ := by simpa using hat
  refine entries_get?_congr h ?_ (htree at_ hbelow)
  rintro rfl
  exact hne (List.prefix_nil.1 hbelow)

/-- What comes to a place when a tree is moved has been there or in the tree. -/
theorem eq_or_prefix_of_rebase {source target place at_ : Place}
    (h : rebase source target place = at_) : place = at_ ∨ source <+: place := by
  unfold rebase at h
  split at h
  · next hsource => exact .inr hsource
  · exact .inl h

/-- Moving a tree of the region to another place leaves the region the same. -/
theorem AgreeOn.moveTree (h : AgreeOn region disk other) {source : Place} (target : Place)
    (hroot : source ≠ []) (hsource : ∀ at_, source <+: at_ → region at_) :
    AgreeOn region (disk.moveTree source target) (other.moveTree source target) := by
  intro at_ hat
  by_cases hat' : at_ = []
  · rw [hat', lookup?_root, lookup?_root]
  have hlook (d : Disk) : (d.moveTree source target).lookup? at_ =
      (((d.entries.toList.filter fun e => decide (rebase source target e.1 = at_)).reverse.head?).map
        fun e => (rebase source target e.1, e.2)).map (·.2) := by
    rw [lookup?, if_neg hat', Disk.moveTree, SortedMap.get?_ofList, ← List.map_reverse,
      List.find?_map, ← List.head?_filter, List.filter_reverse]
    rfl
  have hsame := SortedMap.filter_toList_congr (m := disk.entries) (n := other.entries)
    (p := fun place => rebase source target place = at_) ?_
  · rw [hlook, hlook, hsame]
  · intro place hplace
    rcases eq_or_prefix_of_rebase (of_decide_eq_true hplace) with rfl | hbelow
    · exact entries_get?_congr h hat' hat
    · refine entries_get?_congr h ?_ (hsource place hbelow)
      rintro rfl
      exact hroot (List.prefix_nil.1 hbelow)

theorem rename_alike (h : AgreeOn region disk other) (hsource : Covers region source)
    (htarget : Covers region target) :
    Except.Alike (AgreeOn region) (disk.rename source target) (other.rename source target) := by
  rw [rename, rename, ← locate_congr h hsource.through, ← locate_congr h htarget.through]
  cases hlocate : disk.locate source with
  | error fault => exact .error fault
  | ok place =>
    obtain ⟨-, rfl⟩ := locate_eq_ok_iff.1 hlocate
    cases hlocate' : disk.locate target with
    | error fault => exact .error fault
    | ok place' =>
      obtain ⟨-, rfl⟩ := locate_eq_ok_iff.1 hlocate'
      simp only [Except.ok_bind, ← h _ hsource.place, ← h _ htarget.place,
        ← below_congr h htarget.tree]
      split
      · exact .error _
      · exact .error _
      · exact .ok ((h.unset _).set _ _)
      · exact .error _
      · split
        · exact .ok h
        split
        · exact .error _
        split
        · exact .error _
        · next hinside _ =>
          refine .ok ((h.unset _).moveTree _ ?_ hsource.tree)
          intro hroot
          exact hinside (hroot ▸ List.nil_prefix)

end TypedStore.Disk
