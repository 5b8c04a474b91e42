/-
  TypedStore/Proofs/Disk/Files.lean
  =================================
  **When file operations succeed, and what they leave alone.**

  An operation on a file succeeds exactly if its paths lead somewhere and no directory stands where
  the file is wanted, and then the new disk is the old one but for the places of the paths
  (`write_eq_ok_iff`, `rename_file_eq_ok_iff`). Renaming may also move a whole directory: whatever is
  renamed, nothing changes but at and below the two places (`rename_agrees`). An attempt to remove a
  file leaves the disk, or the disk without the file (`without_cases`).
-/
import TypedStore.Proofs.Disk.Paths
import TypedStore.Proofs.SortedMap

namespace TypedStore

namespace Disk

variable {disk other : Disk} {path : Path} {bytes : Bytes}

/-! ### Single files -/

@[simp]
theorem lookup?_root (disk : Disk) : disk.lookup? [] = some .directory := rfl

theorem lookup?_set_self {place : Place} {entry : Entry} (h : place ≠ []) :
    (disk.set place entry).lookup? place = some entry := by
  rw [lookup?_set disk place place entry h, if_pos rfl]

theorem lookup?_set_ne {place at_ : Place} {entry : Entry} (h : at_ ≠ place) :
    (disk.set place entry).lookup? at_ = disk.lookup? at_ := by
  by_cases hroot : at_ = []
  · rw [hroot, lookup?_root, lookup?_root]
  · rw [lookup?_set disk place at_ entry hroot, if_neg h]

theorem lookup?_unset_self {place : Place} (h : place ≠ []) :
    (disk.unset place).lookup? place = none := by
  rw [lookup?_unset disk place place h, if_pos rfl]

theorem lookup?_unset_ne {place at_ : Place} (h : at_ ≠ place) :
    (disk.unset place).lookup? at_ = disk.lookup? at_ := by
  by_cases hroot : at_ = []
  · rw [hroot, lookup?_root, lookup?_root]
  · rw [lookup?_unset disk place at_ hroot, if_neg h]

theorem unset_set (disk : Disk) (place : Place) (entry : Entry) :
    (disk.set place entry).unset place = disk.unset place := by
  unfold set unset
  congr 1
  apply SortedMap.ext
  intro at_
  simp only [SortedMap.get?_erase, SortedMap.get?_insert]
  split <;> rfl

theorem ne_root_of_not_directory {place : Place} (h : disk.lookup? place ≠ some .directory) :
    place ≠ [] := by
  rintro rfl
  exact h rfl

theorem locate_of_not_reaches (h : ¬ disk.Reaches path) :
    ∃ fault, disk.locate path = .error fault := by
  cases hlocate : disk.locate path with
  | error fault => exact ⟨fault, rfl⟩
  | ok place => exact absurd (locate_eq_ok_iff.1 hlocate).1 h

theorem find_of_reaches (h : disk.Reaches path) :
    disk.find path = .ok (disk.lookup? path.place) := by
  rw [find, locate_of_reaches h]
  rfl

theorem find_of_not_reaches (h : ¬ disk.Reaches path) :
    ∃ fault, disk.find path = .error fault := by
  obtain ⟨fault, hfault⟩ := locate_of_not_reaches h
  exact ⟨fault, by rw [find, hfault]; rfl⟩

theorem contains_eq_true_iff :
    disk.contains path ↔ disk.Reaches path ∧ (disk.lookup? path.place).isSome := by
  unfold contains
  by_cases hreaches : disk.Reaches path
  · rw [find_of_reaches hreaches]
    cases disk.lookup? path.place <;> simp [hreaches]
  · obtain ⟨fault, hfault⟩ := find_of_not_reaches hreaches
    simp [hfault, hreaches]

theorem isDirectory_eq_true_iff :
    disk.isDirectory path ↔ disk.Reaches path ∧ disk.lookup? path.place = some .directory := by
  unfold isDirectory
  by_cases hreaches : disk.Reaches path
  · rw [find_of_reaches hreaches]
    cases disk.lookup? path.place with
    | none => simp
    | some entry => cases entry <;> simp [hreaches]
  · obtain ⟨fault, hfault⟩ := find_of_not_reaches hreaches
    simp [hfault, hreaches]

theorem read_eq_ok_iff :
    disk.read path = .ok bytes ↔
      disk.Reaches path ∧ disk.lookup? path.place = some (.file bytes) := by
  unfold read
  by_cases hreaches : disk.Reaches path
  · rw [find_of_reaches hreaches]
    cases disk.lookup? path.place with
    | none => simp
    | some entry => cases entry <;> simp [hreaches]
  · obtain ⟨fault, hfault⟩ := find_of_not_reaches hreaches
    simp [hfault, hreaches]

theorem write_eq_ok_iff :
    disk.write path bytes = .ok other ↔
      disk.Reaches path ∧ disk.lookup? path.place ≠ some .directory ∧
        other = disk.set path.place (.file bytes) := by
  unfold write
  by_cases hreaches : disk.Reaches path
  · rw [locate_of_reaches hreaches]
    simp only [Except.ok_bind]
    cases disk.lookup? path.place with
    | none => simp [hreaches, eq_comm]
    | some entry => cases entry <;> simp [hreaches, eq_comm]
  · obtain ⟨fault, hfault⟩ := locate_of_not_reaches hreaches
    simp [hfault, hreaches]

theorem remove_eq_ok_iff :
    disk.remove path = .ok other ↔
      disk.Reaches path ∧ (∃ bytes, disk.lookup? path.place = some (.file bytes)) ∧
        other = disk.unset path.place := by
  unfold remove
  by_cases hreaches : disk.Reaches path
  · rw [locate_of_reaches hreaches]
    simp only [Except.ok_bind]
    cases disk.lookup? path.place with
    | none => simp
    | some entry => cases entry <;> simp [hreaches, eq_comm]
  · obtain ⟨fault, hfault⟩ := locate_of_not_reaches hreaches
    simp [hfault, hreaches]

/-- That something is not found is not said of a path that the system does not take. -/
theorem sayable_of_notFound (h : disk.read path = .error .notFound) : Sayable path := by
  rw [← checkPath_eq_ok_iff]
  cases hcheck : checkPath path with
  | ok _ => rfl
  | error fault =>
    rw [read, find, locate, hcheck] at h
    cases h
    exact absurd hcheck (checkPath_ne_notFound path)

/-! ### Renaming -/

theorem reaches_of_rename {source target : Path} (h : disk.rename source target = .ok other) :
    disk.Reaches source ∧ disk.Reaches target := by
  unfold rename at h
  by_cases hsource : disk.Reaches source
  · rw [locate_of_reaches hsource] at h
    by_cases htarget : disk.Reaches target
    · exact ⟨hsource, htarget⟩
    · obtain ⟨fault, hfault⟩ := locate_of_not_reaches htarget
      simp [hfault] at h
  · obtain ⟨fault, hfault⟩ := locate_of_not_reaches hsource
    simp [hfault] at h

/-- A file can be renamed to where no directory is. -/
theorem rename_file_eq_ok_iff {source target : Path}
    (hfile : disk.lookup? source.place = some (.file bytes)) :
    disk.rename source target = .ok other ↔
      disk.Reaches source ∧ disk.Reaches target ∧
        disk.lookup? target.place ≠ some .directory ∧
          other = (disk.unset source.place).set target.place (.file bytes) := by
  by_cases hreaches : disk.Reaches source ∧ disk.Reaches target
  · obtain ⟨hsource, htarget⟩ := hreaches
    unfold rename
    rw [locate_of_reaches hsource, locate_of_reaches htarget]
    simp only [Except.ok_bind, hfile]
    cases disk.lookup? target.place with
    | none => simp [hsource, htarget, eq_comm]
    | some entry => cases entry <;> simp [hsource, htarget, eq_comm]
  · constructor
    · intro h
      exact absurd (reaches_of_rename h) hreaches
    · rintro ⟨hsource, htarget, -⟩
      exact absurd ⟨hsource, htarget⟩ hreaches

/-- What renaming makes of the disk, be it a file or a directory that is renamed. -/
theorem rename_cases {source target : Path} (h : disk.rename source target = .ok other) :
    (∃ bytes, disk.lookup? source.place = some (.file bytes) ∧
      other = (disk.unset source.place).set target.place (.file bytes)) ∨
    (disk.lookup? source.place = some .directory ∧ (other = disk ∨
      other = (disk.unset target.place).moveTree source.place target.place)) := by
  obtain ⟨hsource, htarget⟩ := reaches_of_rename h
  cases hentry : disk.lookup? source.place with
  | none =>
    simp [rename, locate_of_reaches hsource, locate_of_reaches htarget, hentry] at h
  | some entry =>
    cases entry with
    | file bytes =>
      obtain ⟨-, -, -, heq⟩ := (rename_file_eq_ok_iff hentry).1 h
      exact .inl ⟨bytes, rfl, heq⟩
    | directory =>
      refine .inr ⟨rfl, ?_⟩
      unfold rename at h
      rw [locate_of_reaches hsource, locate_of_reaches htarget] at h
      simp only [Except.ok_bind, hentry, Except.throw_eq_error, Except.pure_eq_ok] at h
      cases hold : disk.lookup? target.place with
      | none =>
        simp only [hold] at h
        split at h
        · exact .inl (Except.ok.inj h).symm
        split at h
        · cases h
        split at h
        · cases h
        · exact .inr (Except.ok.inj h).symm
      | some old =>
        cases old with
        | file bytes => simp [hold] at h
        | directory =>
          simp only [hold] at h
          split at h
          · exact .inl (Except.ok.inj h).symm
          split at h
          · cases h
          split at h
          · cases h
          · exact .inr (Except.ok.inj h).symm

/-! ### What stays -/

/-- Nothing has changed but at some places and below them. -/
def AgreesOutside (roots : Place → Prop) (disk other : Disk) : Prop :=
  ∀ place, (∀ root, roots root → ¬ root <+: place) → other.lookup? place = disk.lookup? place

section Agreement

variable {roots : Place → Prop} {place source target : Place}

theorem AgreesOutside.refl (roots : Place → Prop) (disk : Disk) : disk.AgreesOutside roots disk :=
  fun _ _ => rfl

theorem AgreesOutside.trans {a b c : Disk} (hab : a.AgreesOutside roots b)
    (hbc : b.AgreesOutside roots c) : a.AgreesOutside roots c :=
  fun place h => (hbc place h).trans (hab place h)

theorem AgreesOutside.mono {roots' : Place → Prop} (h : disk.AgreesOutside roots other)
    (hroots : ∀ root, roots root → roots' root) : disk.AgreesOutside roots' other :=
  fun place hplace => h place fun root hroot => hplace root (hroots root hroot)

theorem set_agrees (hplace : roots place) (entry : Entry) :
    disk.AgreesOutside roots (disk.set place entry) := by
  intro at_ h
  have hne : at_ ≠ place := by
    rintro rfl
    exact h _ hplace List.prefix_rfl
  exact lookup?_set_ne hne

theorem unset_agrees (hplace : roots place) : disk.AgreesOutside roots (disk.unset place) := by
  intro at_ h
  have hne : at_ ≠ place := by
    rintro rfl
    exact h _ hplace List.prefix_rfl
  exact lookup?_unset_ne hne

/-- A place that is in neither tree is the image of itself only. -/
theorem rebase_eq_iff {at_ : Place} (hsource : ¬ source <+: at_) (htarget : ¬ target <+: at_)
    (q : Place) : rebase source target q = at_ ↔ q = at_ := by
  unfold rebase
  split
  · next h =>
    constructor
    · intro heq
      exact absurd (heq ▸ List.prefix_append _ _) htarget
    · rintro rfl
      exact absurd h hsource
  · exact Iff.rfl

theorem moveTree_agrees (hsource : roots source) (htarget : roots target) :
    disk.AgreesOutside roots (disk.moveTree source target) := by
  intro at_ h
  have hs := h source hsource
  have ht := h target htarget
  by_cases hroot : at_ = []
  · rw [hroot, lookup?_root, lookup?_root]
  · have hkeys : ((fun e : Place × Entry => decide (e.1 = at_)) ∘
        fun e : Place × Entry => (rebase source target e.1, e.2)) =
        fun e : Place × Entry => decide (e.1 = at_) := by
      funext e
      simp only [Function.comp, rebase_eq_iff hs ht]
    have hget : disk.entries.get? at_ =
        (disk.entries.toList.reverse.find? (·.1 = at_)).map (·.2) := by
      rw [← SortedMap.get?_ofList, SortedMap.ofList_toList]
    simp only [lookup?, hroot, ↓reduceIte, moveTree]
    rw [hget, SortedMap.get?_ofList, ← List.map_reverse, List.find?_map, hkeys, Option.map_map]
    rfl

theorem write_agrees (h : disk.write path bytes = .ok other) (hpath : roots path.place) :
    disk.AgreesOutside roots other := by
  obtain ⟨-, -, rfl⟩ := write_eq_ok_iff.1 h
  exact set_agrees hpath _

/-- Renaming changes nothing but at and below the two places. -/
theorem rename_agrees {source target : Path} (h : disk.rename source target = .ok other)
    (hsource : roots source.place) (htarget : roots target.place) :
    disk.AgreesOutside roots other := by
  rcases rename_cases h with ⟨bytes, -, rfl⟩ | ⟨-, rfl | rfl⟩
  · exact (unset_agrees hsource).trans (set_agrees htarget _)
  · exact AgreesOutside.refl roots other
  · exact (unset_agrees htarget).trans (moveTree_agrees hsource htarget)

end Agreement

/-! ### Directories stay -/

theorem hasDirectories_set {place : Place} (h : disk.lookup? place ≠ some .directory)
    (entry : Entry) : disk.HasDirectories (disk.set place entry) := by
  intro at_ hat
  have hne : at_ ≠ place := by
    rintro rfl
    exact h hat
  rw [lookup?_set_ne hne]
  exact hat

theorem hasDirectories_unset {place : Place} (h : disk.lookup? place ≠ some .directory) :
    disk.HasDirectories (disk.unset place) := by
  intro at_ hat
  have hne : at_ ≠ place := by
    rintro rfl
    exact h hat
  rw [lookup?_unset_ne hne]
  exact hat

/-- Removing a file makes no difference to the others that are reached. -/
theorem read_unset_ne {place : Place} (hreaches : disk.Reaches path)
    (hplace : disk.lookup? place ≠ some .directory) (hne : path.place ≠ place) :
    (disk.unset place).read path = disk.read path := by
  have hreaches' := hreaches.mono (hasDirectories_unset hplace)
  rw [read, read, find_of_reaches hreaches, find_of_reaches hreaches', lookup?_unset_ne hne]

theorem isDirectory_mono (h : disk.HasDirectories other) (hdir : disk.isDirectory path) :
    other.isDirectory path := by
  obtain ⟨hreaches, hplace⟩ := isDirectory_eq_true_iff.1 hdir
  exact isDirectory_eq_true_iff.2 ⟨hreaches.mono h, h _ hplace⟩

theorem write_hasDirectories (h : disk.write path bytes = .ok other) :
    disk.HasDirectories other := by
  obtain ⟨-, hplace, rfl⟩ := write_eq_ok_iff.1 h
  exact hasDirectories_set hplace _

/-- A path that takes a file takes any, and the file is there then. -/
theorem read_of_write {bytes : Bytes} (h : disk.write path bytes = .ok other) (new : Bytes) :
    ∃ written, disk.write path new = .ok written ∧ written.read path = .ok new := by
  obtain ⟨hreaches, hplace, -⟩ := write_eq_ok_iff.1 h
  have hwrite : disk.write path new = .ok (disk.set path.place (.file new)) :=
    write_eq_ok_iff.2 ⟨hreaches, hplace, rfl⟩
  refine ⟨_, hwrite, read_eq_ok_iff.2 ⟨hreaches.mono (write_hasDirectories hwrite), ?_⟩⟩
  exact lookup?_set_self (ne_root_of_not_directory hplace)

theorem rename_file_hasDirectories {source target : Path}
    (hfile : disk.lookup? source.place = some (.file bytes))
    (h : disk.rename source target = .ok other) : disk.HasDirectories other := by
  obtain ⟨-, -, htarget, rfl⟩ := (rename_file_eq_ok_iff hfile).1 h
  have hsource : disk.lookup? source.place ≠ some .directory := by
    rw [hfile]
    simp
  refine (hasDirectories_unset hsource).trans (hasDirectories_set ?_ _)
  by_cases hsame : target.place = source.place
  · rw [hsame, lookup?_unset_self (ne_root_of_not_directory hsource)]
    simp
  · rw [lookup?_unset_ne hsame]
    exact htarget

/-! ### Attempts to remove -/

section Removal

variable {place : Place}

/-- The disk after an attempt to remove a file. -/
def without (disk : Disk) (path : Path) : Disk :=
  match disk.remove path with
  | .ok other => other
  | .error _ => disk

theorem without_of_file (hreaches : disk.Reaches path)
    (hfile : disk.lookup? path.place = some (.file bytes)) :
    disk.without path = disk.unset path.place := by
  rw [without, remove_eq_ok_iff.2 ⟨hreaches, ⟨bytes, hfile⟩, rfl⟩]

theorem without_cases (disk : Disk) (path : Path) :
    disk.without path = disk ∨ disk.without path = disk.unset path.place := by
  unfold without
  cases hremove : disk.remove path with
  | ok other => exact .inr (remove_eq_ok_iff.1 hremove).2.2
  | error fault => exact .inl rfl

theorem lookup?_without_ne (h : place ≠ path.place) :
    (disk.without path).lookup? place = disk.lookup? place := by
  rcases disk.without_cases path with heq | heq
  · rw [heq]
  · rw [heq, lookup?_unset_ne h]

/-- Where a file cannot be written there is none to be removed. -/
theorem without_of_write_error {reason : DiskFault} (h : disk.write path bytes = .error reason) :
    disk.without path = disk := by
  unfold without
  cases hremove : disk.remove path with
  | error fault => rfl
  | ok other =>
    obtain ⟨hreaches, ⟨old, hold⟩, -⟩ := remove_eq_ok_iff.1 hremove
    have hwrite : disk.write path bytes = .ok (disk.set path.place (.file bytes)) :=
      write_eq_ok_iff.2 ⟨hreaches, by rw [hold]; simp, rfl⟩
    rw [hwrite] at h
    cases h

/-- A file that has just been written can be removed. -/
theorem without_of_write (h : disk.write path bytes = .ok other) :
    other.without path = disk.unset path.place := by
  have hdirs := write_hasDirectories h
  obtain ⟨hreaches, hplace, rfl⟩ := write_eq_ok_iff.1 h
  rw [without_of_file (hreaches.mono hdirs) (lookup?_set_self (ne_root_of_not_directory hplace)),
    unset_set]

/-- No directory comes about by removing a file. -/
theorem without_hasDirectories : (disk.without path).HasDirectories disk := by
  intro at_ hat
  rcases disk.without_cases path with heq | heq
  · rwa [heq] at hat
  · rw [heq] at hat
    by_cases hplace : at_ = path.place
    · by_cases hroot : path.place = []
      · rw [hplace, hroot]
        rfl
      · rw [hplace, lookup?_unset_self hroot] at hat
        cases hat
    · rwa [lookup?_unset_ne hplace] at hat

end Removal

end Disk

end TypedStore
