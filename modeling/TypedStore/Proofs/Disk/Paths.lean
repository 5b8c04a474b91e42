/-
  TypedStore/Proofs/Disk/Paths.lean
  =================================
  **Where paths lead.**

  If a path leads anywhere on a disk, it leads to the same place on every disk (`Path.place`). So
  what remains to be said of a path and a disk is whether the one leads anywhere on the other
  (`Disk.Reaches`), and that depends on the directories of the disk only (`Reaches.mono`).

  Paths of names in one directory are reached together: if one is, so is any other whose name is no
  longer (`Reaches.sibling`).
-/
import TypedStore.Disk.Basic
import TypedStore.Proofs.Results

namespace TypedStore

/-! ### Places -/

namespace Path

/-- The place that a part of a path leads to. -/
def advance (place : Place) (part : String) : Place :=
  if part = "" ∨ part = "." then place
  else if part = ".." then place.dropLast
  else place ++ [part]

/-- The place that a path leads to. -/
def place (path : Path) : Place := path.foldl advance []

/-- A name of something in a directory. -/
structure IsName (name : String) : Prop where
  ne_empty : name ≠ ""
  ne_dot : name ≠ "."
  ne_dots : name ≠ ".."
  no_null : '\x00' ∉ name.toList

theorem advance_name {place : Place} {name : String} (h : IsName name) :
    advance place name = place ++ [name] := by
  simp [advance, h.ne_empty, h.ne_dot, h.ne_dots]

/-- The path of a directory without the slash at its end. -/
def base (dir : Path) : Path := if dir.getLast? = some "" then dir.dropLast else dir

theorem child_eq (dir : Path) (name : String) : dir.child name = dir.base ++ [name] := rfl

theorem eq_base_or (dir : Path) : dir = dir.base ∨ dir = dir.base ++ [""] := by
  unfold base
  split
  · next h =>
    right
    obtain ⟨front, rfl⟩ := List.getLast?_eq_some_iff.1 h
    rw [List.dropLast_concat]
  · exact .inl rfl

theorem base_isPrefix (dir : Path) : dir.base <+: dir := by
  rcases dir.eq_base_or with h | h
  · exact h ▸ List.prefix_rfl
  · exact ⟨[""], h.symm⟩

theorem place_append_empty (path : Path) : place (path ++ [""]) = path.place := by
  simp [place, advance]

theorem place_base (dir : Path) : dir.base.place = dir.place := by
  rcases dir.eq_base_or with h | h
  · rw [← h]
  · conv => rhs; rw [h, place_append_empty]

theorem place_child (dir : Path) {name : String} (h : IsName name) :
    (dir.child name).place = dir.place ++ [name] := by
  rw [child_eq, place, List.foldl_append, List.foldl_cons, List.foldl_nil, advance_name h]
  change dir.base.place ++ [name] = _
  rw [place_base]

end Path

/-! ### Reaching -/

namespace Disk

variable {disk : Disk}

theorem follow_case {place next : Place} {part : String}
    (h : part.utf8ByteSize ≤ Path.maxNameBytes) :
    (Except.ok place : Except DiskFault Place) = .ok next ↔
      some Entry.directory = some .directory ∧ part.utf8ByteSize ≤ Path.maxNameBytes ∧
        next = place := by
  constructor
  · intro heq
    exact ⟨rfl, h, (Except.ok.inj heq).symm⟩
  · rintro ⟨-, -, rfl⟩
    rfl

theorem follow_eq_ok_iff {place next : Place} {part : String} :
    disk.follow place part = .ok next ↔
      disk.lookup? place = some .directory ∧ part.utf8ByteSize ≤ Path.maxNameBytes ∧
        next = Path.advance place part := by
  have hempty : "".utf8ByteSize ≤ Path.maxNameBytes := by decide
  have hdot : ".".utf8ByteSize ≤ Path.maxNameBytes := by decide
  have hdots : "..".utf8ByteSize ≤ Path.maxNameBytes := by decide
  unfold follow Path.advance
  cases disk.lookup? place with
  | none => simp
  | some entry =>
    cases entry with
    | file bytes => simp
    | directory =>
      dsimp only
      by_cases hstay : part = "" ∨ part = "."
      · have hlength : part.utf8ByteSize ≤ Path.maxNameBytes := by
          rcases hstay with rfl | rfl
          · exact hempty
          · exact hdot
        rw [if_pos hstay, if_pos hstay]
        exact follow_case hlength
      rw [if_neg hstay, if_neg hstay]
      by_cases hup : part = ".."
      · rw [if_pos hup, if_pos hup]
        exact follow_case (hup ▸ hdots)
      rw [if_neg hup, if_neg hup]
      by_cases hlong : Path.maxNameBytes < part.utf8ByteSize
      · rw [if_pos hlong]
        constructor
        · intro h
          cases h
        · rintro ⟨-, hlength, -⟩
          omega
      · rw [if_neg hlong]
        exact follow_case (Nat.not_lt.1 hlong)

/-- Every part of a path can be followed, one after the other. -/
def Walks (disk : Disk) : Place → Path → Prop
  | _, [] => True
  | place, part :: rest =>
    disk.lookup? place = some .directory ∧ part.utf8ByteSize ≤ Path.maxNameBytes ∧
      disk.Walks (Path.advance place part) rest

theorem foldlM_follow_eq_ok_iff {place target : Place} {path : Path} :
    path.foldlM disk.follow place = .ok target ↔
      disk.Walks place path ∧ target = path.foldl Path.advance place := by
  induction path generalizing place with
  | nil => simp [Walks, eq_comm]
  | cons part rest ih =>
    rw [List.foldlM_cons, List.foldl_cons]
    constructor
    · intro h
      cases hpart : disk.follow place part with
      | error fault => simp [hpart] at h
      | ok next =>
        obtain ⟨hdir, hlength, rfl⟩ := follow_eq_ok_iff.1 hpart
        rw [hpart] at h
        obtain ⟨hwalks, htarget⟩ := ih.1 h
        exact ⟨⟨hdir, hlength, hwalks⟩, htarget⟩
    · rintro ⟨⟨hdir, hlength, hwalks⟩, htarget⟩
      rw [follow_eq_ok_iff.2 ⟨hdir, hlength, rfl⟩]
      exact ih.2 ⟨hwalks, htarget⟩

theorem walks_append {place : Place} {front back : Path} :
    disk.Walks place (front ++ back) ↔
      disk.Walks place front ∧ disk.Walks (front.foldl Path.advance place) back := by
  induction front generalizing place with
  | nil => simp [Walks]
  | cons part rest ih => simp [Walks, ih, and_assoc]

/-- A path that the system takes at all. -/
def Sayable (path : Path) : Prop :=
  (∀ part ∈ path, '\x00' ∉ part.toList) ∧ path.text.utf8ByteSize ≤ Path.maxBytes

/-- A path that leads somewhere, be there something or not. -/
def Reaches (disk : Disk) (path : Path) : Prop := Sayable path ∧ disk.Walks [] path

theorem checkPath_eq_ok_iff {path : Path} : checkPath path = .ok () ↔ Sayable path := by
  have hnull : path.any ('\x00' ∈ ·.toList) = false ↔ ∀ part ∈ path, '\x00' ∉ part.toList := by
    simp [List.any_eq_false]
  unfold checkPath Sayable
  rw [← hnull, ← Nat.not_lt]
  split
  · next h => simp [h]
  · next h =>
    rw [Bool.not_eq_true] at h
    split
    · next hlong => simp [hlong]
    · next hshort => simp [h, hshort]

theorem checkPath_ne_notFound (path : Path) : checkPath path ≠ .error .notFound := by
  unfold checkPath
  split
  · exact nofun
  · split <;> exact nofun

theorem locate_eq_ok_iff {path : Path} {place : Place} :
    disk.locate path = .ok place ↔ disk.Reaches path ∧ place = path.place := by
  rw [locate, Except.bind_eq_ok_iff, Reaches, ← checkPath_eq_ok_iff, and_assoc]
  simp only [foldlM_follow_eq_ok_iff]
  exact ⟨fun ⟨u, h, hrest⟩ => ⟨h, hrest⟩, fun ⟨h, hrest⟩ => ⟨(), h, hrest⟩⟩

/-- Where a path leads is found by following its parts, if it is taken at all. -/
theorem locate_of_sayable {path : Path} (h : Sayable path) :
    disk.locate path = path.foldlM disk.follow [] := by
  rw [locate, checkPath_eq_ok_iff.2 h, Except.ok_bind]

theorem locate_of_reaches {path : Path} (h : disk.Reaches path) :
    disk.locate path = .ok path.place := locate_eq_ok_iff.2 ⟨h, rfl⟩

/-! ### Reaching on other disks -/

/-- The directories of the one disk are directories of the other. -/
def HasDirectories (disk other : Disk) : Prop :=
  ∀ place, disk.lookup? place = some .directory → other.lookup? place = some .directory

theorem HasDirectories.refl (disk : Disk) : disk.HasDirectories disk := fun _ h => h

theorem HasDirectories.trans {a b c : Disk} (hab : a.HasDirectories b)
    (hbc : b.HasDirectories c) : a.HasDirectories c := fun place h => hbc place (hab place h)

theorem Walks.mono {other : Disk} (h : disk.HasDirectories other) {place : Place} {path : Path}
    (hwalks : disk.Walks place path) : other.Walks place path := by
  induction path generalizing place with
  | nil => trivial
  | cons part rest ih =>
    obtain ⟨hdir, hlength, hrest⟩ := hwalks
    exact ⟨h place hdir, hlength, ih hrest⟩

/-- Only directories matter for where paths lead. -/
theorem Reaches.mono {other : Disk} (h : disk.HasDirectories other) {path : Path}
    (hreaches : disk.Reaches path) : other.Reaches path :=
  ⟨hreaches.1, hreaches.2.mono h⟩

/-! ### Directories and what is in them -/

theorem Reaches.base_walks {dir : Path} {name : String} (h : disk.Reaches (dir.child name)) :
    disk.Walks [] dir.base ∧ disk.lookup? dir.place = some .directory ∧
      name.utf8ByteSize ≤ Path.maxNameBytes := by
  obtain ⟨-, hwalks⟩ := h
  rw [Path.child_eq, walks_append] at hwalks
  obtain ⟨hbase, hdir, hlength, -⟩ := hwalks
  change disk.lookup? dir.base.place = _ at hdir
  rw [Path.place_base] at hdir
  exact ⟨hbase, hdir, hlength⟩

theorem Walks.child {dir : Path} {name : String} (hbase : disk.Walks [] dir.base)
    (hdir : disk.lookup? dir.place = some .directory)
    (hlength : name.utf8ByteSize ≤ Path.maxNameBytes) : disk.Walks [] (dir.child name) := by
  rw [Path.child_eq, walks_append]
  refine ⟨hbase, ?_, hlength, trivial⟩
  change disk.lookup? dir.base.place = _
  rw [Path.place_base]
  exact hdir

theorem walks_of_base {dir : Path} (hbase : disk.Walks [] dir.base)
    (hdir : disk.lookup? dir.place = some .directory) : disk.Walks [] dir := by
  rcases dir.eq_base_or with h | h
  · rw [h]
    exact hbase
  · rw [h, walks_append]
    refine ⟨hbase, ?_, by decide, trivial⟩
    change disk.lookup? dir.base.place = _
    rw [Path.place_base]
    exact hdir

/-- The bytes of a path are those of its front, which do not depend on the last part, and those of
    the last part. -/
theorem utf8ByteSize_text_concat (front : Path) :
    ∃ size, ∀ part : String,
      (Path.text (front ++ [part])).utf8ByteSize = size + part.utf8ByteSize := by
  by_cases hempty : front = []
  · subst hempty
    exact ⟨0, fun part => by simp [Path.text]⟩
  · refine ⟨(Path.text front).utf8ByteSize + 1, fun part => ?_⟩
    have hslash : "/".utf8ByteSize = 1 := rfl
    simp [Path.text, String.intercalate_append_of_ne_nil hempty, hslash]

theorem Sayable.sibling {dir : Path} {name other : String} (h : Sayable (dir.child name))
    (hnull : '\x00' ∉ other.toList) (hlength : other.utf8ByteSize ≤ name.utf8ByteSize) :
    Sayable (dir.child other) := by
  obtain ⟨hno, hsize⟩ := h
  rw [Path.child_eq] at *
  obtain ⟨size, htext⟩ := utf8ByteSize_text_concat dir.base
  constructor
  · intro part hpart
    rcases List.mem_append.1 hpart with hpart | hpart
    · exact hno part (List.mem_append_left _ hpart)
    · obtain rfl : part = other := by simpa using hpart
      exact hnull
  · have hname := htext name
    have hother := htext other
    omega

/-- With a path its siblings of no longer names are reached. -/
theorem Reaches.sibling {dir : Path} {name other : String} (h : disk.Reaches (dir.child name))
    (hnull : '\x00' ∉ other.toList) (hlength : other.utf8ByteSize ≤ name.utf8ByteSize) :
    disk.Reaches (dir.child other) := by
  obtain ⟨hbase, hdir, hname⟩ := h.base_walks
  exact ⟨h.1.sibling hnull hlength, Walks.child hbase hdir (Nat.le_trans hlength hname)⟩

/-- A directory is no longer written than what is in it. -/
theorem Sayable.dir {dir : Path} {name : String} (h : Sayable (dir.child name)) :
    Sayable dir := by
  obtain ⟨hno, hsize⟩ := h
  rw [Path.child_eq] at *
  have hfront : ∀ part ∈ dir.base, '\x00' ∉ part.toList := fun part hpart =>
    hno part (List.mem_append_left _ hpart)
  obtain ⟨size, htext⟩ := utf8ByteSize_text_concat dir.base
  have hfull := htext name
  rcases dir.eq_base_or with heq | heq
  · rw [heq]
    refine ⟨hfront, ?_⟩
    by_cases hempty : dir.base = []
    · rw [hempty]
      decide
    · have hsplit : (Path.text (dir.base ++ [name])).utf8ByteSize =
          (Path.text dir.base).utf8ByteSize + 1 + name.utf8ByteSize := by
        have hslash : "/".utf8ByteSize = 1 := rfl
        simp [Path.text, String.intercalate_append_of_ne_nil hempty, hslash]
      omega
  · have hslash := htext ""
    rw [heq]
    constructor
    · intro part hpart
      rcases List.mem_append.1 hpart with hpart | hpart
      · exact hfront part hpart
      · obtain rfl : part = "" := by simpa using hpart
        simp
    · have hzero : "".utf8ByteSize = 0 := rfl
      omega

/-- What contains something that is reached is itself a directory that is reached. -/
theorem Reaches.dir {dir : Path} {name : String} (h : disk.Reaches (dir.child name)) :
    disk.Reaches dir ∧ disk.lookup? dir.place = some .directory := by
  obtain ⟨hbase, hdir, -⟩ := h.base_walks
  exact ⟨⟨h.1.dir, walks_of_base hbase hdir⟩, hdir⟩

end Disk

end TypedStore
