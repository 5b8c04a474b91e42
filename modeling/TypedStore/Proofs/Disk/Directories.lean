/-
  TypedStore/Proofs/Disk/Directories.lean
  =======================================
  **Making directories.**

  When the directories of a path have been made, the path leads to a directory
  (`isDirectory_of_makeDirectories`); where it leads to a directory already, nothing is made
  (`makeDirectories_eq_self`). Whatever has been made, the disk has grown by directories only
  (`makeDirectories_grows`), so no file is found afterwards that had not been there before.
-/
import TypedStore.Proofs.Disk.Files

namespace TypedStore

namespace Path

theorem eq_withoutSlash_append (path : Path) :
    ∃ slashes : Path, (∀ part ∈ slashes, part = "") ∧ path = path.withoutSlash ++ slashes := by
  refine ⟨(path.reverse.takeWhile (· = "")).reverse, ?_, ?_⟩
  · intro part hpart
    have hall := List.all_takeWhile (p := fun part => decide (part = "")) (l := path.reverse)
    simpa using List.all_eq_true.1 hall part (List.mem_reverse.1 hpart)
  · rw [withoutSlash, ← List.reverse_append, List.takeWhile_append_dropWhile,
      List.reverse_reverse]

theorem withoutSlash_isPrefix (path : Path) : path.withoutSlash <+: path := by
  obtain ⟨slashes, -, heq⟩ := path.eq_withoutSlash_append
  exact ⟨slashes, heq.symm⟩

theorem foldl_advance_slashes {slashes : Path} (h : ∀ part ∈ slashes, part = "") (place : Place) :
    slashes.foldl advance place = place := by
  induction slashes with
  | nil => rfl
  | cons part rest ih =>
    obtain rfl := h part List.mem_cons_self
    have hrest : ∀ part ∈ rest, part = "" := fun part hpart => h part (List.mem_cons_of_mem _ hpart)
    have hstay : advance place "" = place := if_pos (.inl rfl)
    rw [List.foldl_cons, hstay, ih hrest]

theorem place_withoutSlash (path : Path) : path.withoutSlash.place = path.place := by
  obtain ⟨slashes, hslashes, heq⟩ := path.eq_withoutSlash_append
  conv => rhs; rw [heq, place, List.foldl_append, foldl_advance_slashes hslashes]
  rfl

end Path

namespace Disk

variable {disk other : Disk} {path : Path}

theorem walks_slashes {place : Place} (hplace : disk.lookup? place = some .directory)
    {slashes : Path} (h : ∀ part ∈ slashes, part = "") : disk.Walks place slashes := by
  induction slashes with
  | nil => trivial
  | cons part rest ih =>
    obtain rfl := h part List.mem_cons_self
    have hrest : ∀ part ∈ rest, part = "" := fun part hpart => h part (List.mem_cons_of_mem _ hpart)
    exact ⟨hplace, by decide, ih hrest⟩

theorem walks_withoutSlash (h : disk.Walks [] path) : disk.Walks [] path.withoutSlash := by
  obtain ⟨slashes, -, heq⟩ := path.eq_withoutSlash_append
  rw [heq, walks_append] at h
  exact h.1

theorem walks_of_withoutSlash (h : disk.Walks [] path.withoutSlash)
    (hplace : disk.lookup? path.place = some .directory) : disk.Walks [] path := by
  obtain ⟨slashes, hslashes, heq⟩ := path.eq_withoutSlash_append
  rw [heq, walks_append]
  refine ⟨h, walks_slashes ?_ hslashes⟩
  change disk.lookup? path.withoutSlash.place = _
  rw [Path.place_withoutSlash]
  exact hplace

theorem utf8ByteSize_text_le_append (front back : Path) :
    front.text.utf8ByteSize ≤ (Path.text (front ++ back)).utf8ByteSize := by
  by_cases hfront : front = []
  · subst hfront
    simp [Path.text]
  by_cases hback : back = []
  · subst hback
    simp
  · rw [Path.text, Path.text, String.intercalate_append_of_ne_nil hfront hback,
      String.utf8ByteSize_append, String.utf8ByteSize_append, Nat.add_assoc]
    exact Nat.le_add_right _ _

/-- What a path begins with is taken if the path is. -/
theorem Sayable.front (h : Sayable path) {front : Path} (hfront : front <+: path) :
    Sayable front := by
  obtain ⟨hnull, hsize⟩ := h
  obtain ⟨back, rfl⟩ := hfront
  exact ⟨fun part hpart => hnull part (List.mem_append_left back hpart),
    Nat.le_trans (utf8ByteSize_text_le_append front back) hsize⟩

/-- The path of a directory leads through directories. -/
theorem isDirectory_front (h : disk.isDirectory path) {front : Path} (hfront : front <+: path) :
    disk.isDirectory front := by
  obtain ⟨⟨hsayable, hwalks⟩, hplace⟩ := isDirectory_eq_true_iff.1 h
  refine isDirectory_eq_true_iff.2 ⟨⟨hsayable.front hfront, ?_⟩, ?_⟩
  · obtain ⟨back, rfl⟩ := hfront
    exact (walks_append.1 hwalks).1
  · obtain ⟨back, rfl⟩ := hfront
    cases back with
    | nil => rwa [List.append_nil] at hplace
    | cons part rest => exact (walks_append.1 hwalks).2.1

/-! ### Making one directory -/

/-- The slashes at the end of a path count for its length, but not for where it leads. -/
theorem makeDirectory_of_walks (h : Sayable path) (hwalks : disk.Walks [] path.withoutSlash) :
    disk.makeDirectory path = match disk.lookup? path.place with
      | none => .ok (disk.set path.place .directory)
      | some _ => .error .occupied := by
  rw [makeDirectory, checkPath_eq_ok_iff.2 h, Except.ok_bind,
    locate_of_reaches ⟨h.front path.withoutSlash_isPrefix, hwalks⟩, Path.place_withoutSlash]
  rfl

theorem makeDirectory_of_not_walks {fault : DiskFault} (h : Sayable path)
    (hfault : path.withoutSlash.foldlM disk.follow [] = .error fault) :
    disk.makeDirectory path = .error fault := by
  rw [makeDirectory, checkPath_eq_ok_iff.2 h, Except.ok_bind,
    locate_of_sayable (h.front path.withoutSlash_isPrefix), hfault, Except.error_bind]

theorem makeDirectory_eq_ok_iff :
    disk.makeDirectory path = .ok other ↔
      Sayable path ∧ disk.Walks [] path.withoutSlash ∧ disk.lookup? path.place = none ∧
        other = disk.set path.place .directory := by
  constructor
  · intro h
    obtain ⟨_, hcheck, hmake⟩ := Except.bind_eq_ok_iff.1 h
    obtain ⟨place, hlocate, hset⟩ := Except.bind_eq_ok_iff.1 hmake
    obtain ⟨⟨-, hwalks⟩, rfl⟩ := locate_eq_ok_iff.1 hlocate
    rw [Path.place_withoutSlash] at hset
    cases hplace : disk.lookup? path.place with
    | none =>
      simp only [hplace] at hset
      exact ⟨checkPath_eq_ok_iff.1 hcheck, hwalks, rfl, (Except.ok.inj hset).symm⟩
    | some entry =>
      simp only [hplace] at hset
      cases hset
  · rintro ⟨hsayable, hwalks, hnone, rfl⟩
    rw [makeDirectory_of_walks hsayable hwalks, hnone]

theorem makeDirectory_of_isDirectory (h : disk.isDirectory path) :
    disk.makeDirectory path = .error .occupied := by
  obtain ⟨⟨hsayable, hwalks⟩, hplace⟩ := isDirectory_eq_true_iff.1 h
  rw [makeDirectory_of_walks hsayable (walks_withoutSlash hwalks), hplace]

/-- A directory that has been made, or was there, is there. -/
theorem isDirectory_of_ensureDirectory (h : disk.ensureDirectory path = (.ok (), other)) :
    other.isDirectory path := by
  unfold ensureDirectory at h
  cases hmake : disk.makeDirectory path with
  | error fault =>
    simp only [hmake, Prod.mk.injEq] at h
    obtain ⟨hresult, rfl⟩ := h
    cases hdir : disk.isDirectory path with
    | true => rfl
    | false => simp [hdir] at hresult
  | ok made =>
    simp only [hmake, Prod.mk.injEq, true_and] at h
    subst h
    obtain ⟨hsayable, hwalks, hnone, rfl⟩ := makeDirectory_eq_ok_iff.1 hmake
    have hne : path.place ≠ [] := by
      intro hroot
      rw [hroot] at hnone
      cases hnone
    have hplace : (disk.set path.place .directory).lookup? path.place = some .directory :=
      lookup?_set_self hne
    have hdirs : disk.HasDirectories (disk.set path.place .directory) :=
      hasDirectories_set (by rw [hnone]; simp) _
    exact isDirectory_eq_true_iff.2
      ⟨⟨hsayable, walks_of_withoutSlash (hwalks.mono hdirs) hplace⟩, hplace⟩

/-! ### Making all of them -/

theorem makeFirst_eq_ok {above : List Path} (h : disk.makeFirst (path :: above) = (.ok (), other)) :
    ∃ before : Disk, before.ensureDirectory path = (.ok (), other) := by
  rw [makeFirst] at h
  split at h
  · split at h
    · next between _ => exact ⟨between, h⟩
    · next hnot => exact absurd h (hnot _)
  · exact ⟨disk, h⟩

/-- After the directories of a path have been made, the path leads to a directory. -/
theorem isDirectory_of_makeDirectories (h : disk.makeDirectories path = (.ok (), other)) :
    other.isDirectory path := by
  obtain ⟨before, hbefore⟩ := makeFirst_eq_ok h
  exact isDirectory_of_ensureDirectory hbefore

theorem makeFirst_eq_self (h : disk.isDirectory path) (above : List Path) :
    disk.makeFirst (path :: above) = (.ok (), disk) := by
  have hensure : disk.ensureDirectory path = (.ok (), disk) := by
    rw [ensureDirectory, makeDirectory_of_isDirectory h]
    simp [h]
  rw [makeFirst, makeDirectory_of_isDirectory h]
  exact hensure

/-- Where there is a directory none is made. -/
theorem makeDirectories_eq_self (h : disk.isDirectory path) :
    disk.makeDirectories path = (.ok (), disk) := makeFirst_eq_self h _

/-! ### Disks that grow -/

/-- The other disk is the same, but for directories where there has been nothing. -/
def Grows (disk other : Disk) : Prop :=
  ∀ place, other.lookup? place = disk.lookup? place ∨
    disk.lookup? place = none ∧ other.lookup? place = some .directory

/-- The disk has grown by directories that some of the paths lead to. -/
def GrowsAlong (paths : List Path) (disk other : Disk) : Prop :=
  ∀ place, other.lookup? place = disk.lookup? place ∨ disk.lookup? place = none ∧
    other.lookup? place = some .directory ∧ ∃ path ∈ paths, place = path.place

theorem GrowsAlong.refl (paths : List Path) (disk : Disk) : disk.GrowsAlong paths disk :=
  fun _ => .inl rfl

theorem GrowsAlong.grows {paths : List Path} (h : disk.GrowsAlong paths other) : disk.Grows other :=
  fun place => (h place).imp_right fun ⟨hnone, hdir, _⟩ => ⟨hnone, hdir⟩

theorem GrowsAlong.mono {paths more : List Path} (h : disk.GrowsAlong paths other)
    (hsub : paths ⊆ more) : disk.GrowsAlong more other :=
  fun place => (h place).imp_right fun ⟨hnone, hdir, path, hpath, heq⟩ =>
    ⟨hnone, hdir, path, hsub hpath, heq⟩

theorem GrowsAlong.trans {paths : List Path} {a b c : Disk} (hab : a.GrowsAlong paths b)
    (hbc : b.GrowsAlong paths c) : a.GrowsAlong paths c := by
  intro place
  rcases hbc place with hsame | ⟨hnone, hdir, hplace⟩
  · rw [hsame]
    exact hab place
  · rcases hab place with hsame | ⟨-, hdir', -⟩
    · exact .inr ⟨hsame ▸ hnone, hdir, hplace⟩
    · rw [hnone] at hdir'
      cases hdir'

theorem makeDirectory_growsAlong (h : disk.makeDirectory path = .ok other) :
    disk.GrowsAlong [path] other := by
  obtain ⟨-, -, hnone, rfl⟩ := makeDirectory_eq_ok_iff.1 h
  intro place
  by_cases hplace : place = path.place
  · subst hplace
    have hne : path.place ≠ [] := ne_root_of_not_directory (by rw [hnone]; simp)
    exact .inr ⟨hnone, lookup?_set_self hne, path, List.mem_singleton_self path, rfl⟩
  · exact .inl (lookup?_set_ne hplace)

theorem ensureDirectory_growsAlong (disk : Disk) (path : Path) :
    disk.GrowsAlong [path] (disk.ensureDirectory path).2 := by
  unfold ensureDirectory
  cases hmake : disk.makeDirectory path with
  | ok other => exact makeDirectory_growsAlong hmake
  | error fault => exact .refl _ disk

theorem makeFirst_growsAlong (disk : Disk) (paths : List Path) :
    disk.GrowsAlong paths (disk.makeFirst paths).2 := by
  induction paths with
  | nil => exact .refl _ disk
  | cons path above ih =>
    have hensure : ∀ made : Disk, made.GrowsAlong (path :: above) (made.ensureDirectory path).2 :=
      fun made => (made.ensureDirectory_growsAlong path).mono (by simp)
    have habove := ih.mono (List.subset_cons_self path above)
    rw [makeFirst]
    split
    · split
      · next made heq =>
        rw [heq] at habove
        exact habove.trans (hensure made)
      · exact habove
    · exact hensure disk

/-- Making directories only adds directories, and only those that the path is written with, be it
    successful or not. -/
theorem makeDirectories_growsAlong (disk : Disk) (path : Path) :
    disk.GrowsAlong (path :: path.above) (disk.makeDirectories path).2 := makeFirst_growsAlong disk _

theorem makeDirectories_grows (disk : Disk) (path : Path) :
    disk.Grows (disk.makeDirectories path).2 := (makeDirectories_growsAlong disk path).grows

/-- The bytes of the file at a place, if there is one. -/
def bytesAt (disk : Disk) (place : Place) : Option Bytes :=
  match disk.lookup? place with
  | some (.file bytes) => some bytes
  | _ => none

theorem bytesAt_congr {place : Place} (h : disk.lookup? place = other.lookup? place) :
    disk.bytesAt place = other.bytesAt place := by
  rw [bytesAt, bytesAt, h]

theorem Grows.bytesAt_eq (h : disk.Grows other) (place : Place) :
    other.bytesAt place = disk.bytesAt place := by
  rcases h place with hsame | ⟨hnone, hdir⟩
  · exact bytesAt_congr hsame
  · rw [bytesAt, bytesAt, hnone, hdir]

/-- What is not found where a disk has grown is not found on the disk before. -/
theorem Grows.read_notFound (h : disk.Grows other) (hread : other.read path = .error .notFound) :
    disk.read path = .error .notFound := by
  have hfollow : ∀ (path : Path) (place : Place),
      path.foldlM disk.follow place = path.foldlM other.follow place ∨
        path.foldlM disk.follow place = .error .notFound := by
    intro path
    induction path with
    | nil => exact fun _ => .inl rfl
    | cons part rest ih =>
      intro place
      rw [List.foldlM_cons, List.foldlM_cons]
      rcases h place with hsame | ⟨hnone, -⟩
      · have hstep : disk.follow place part = other.follow place part := by
          rw [follow, follow, hsame]
        rw [hstep]
        cases other.follow place part with
        | error fault => exact .inl rfl
        | ok next => exact ih next
      · right
        rw [follow, hnone]
        rfl
  have hlocate : disk.locate path = other.locate path ∨ disk.locate path = .error .notFound := by
    unfold locate
    cases checkPath path with
    | error fault => exact .inl rfl
    | ok _ => exact hfollow path []
  rcases hlocate with hsame | hmissing
  · rw [read, find, hsame]
    rw [read, find] at hread
    cases hother : other.locate path with
    | error fault =>
      rw [hother] at hread
      exact hread
    | ok place =>
      rw [hother] at hread
      have hnone : other.lookup? place = none := by
        cases hentry : other.lookup? place with
        | none => rfl
        | some entry => cases entry <;> simp [Except.map, hentry] at hread
      rcases h place with heq | ⟨hdisk, -⟩
      · simp [Except.map, ← heq, hnone]
      · simp [Except.map, hdisk]
  · rw [read, find, hmissing]
    rfl

end Disk

end TypedStore
