/-
  TypedStore/Proofs/Archive/Territory.lean
  ========================================
  **The places that belong to the files of one store.**

  Stores that share a directory are told apart by their numbers. The territory of a store are the
  places in the directory of which the names begin as those of its files do, with what is below them,
  and the places that the path of the directory leads through. A commit of another store changes
  nothing there, and leaves the directory a directory (`commit_leaves_territory`): the number of a
  store ends where the digits end, so no name of the one store is a name of the other.
-/
import TypedStore.Proofs.Archive.Agreement
import TypedStore.Proofs.Disk.Regions

namespace TypedStore

namespace Disk

variable {region : Place → Prop} {disk other : Disk} {dir path : Path}

theorem through_of_fronts {place : Place} (h : ∀ front, front <+: path → front ≠ path →
    region (front.foldl Path.advance place)) : Through region place path := by
  induction path generalizing place with
  | nil => trivial
  | cons part rest ih =>
    refine ⟨h [] List.nil_prefix (by simp), ih ?_⟩
    intro front hfront hne
    exact h (part :: front) ((List.prefix_cons_inj part).2 hfront) fun heq => hne (List.cons.inj heq).2

theorem through_append {place : Place} {front back : Path} :
    Through region place (front ++ back) ↔
      Through region place front ∧ Through region (front.foldl Path.advance place) back := by
  induction front generalizing place with
  | nil => simp [Through]
  | cons part rest ih => simp [Through, ih, and_assoc]

/-- What leads to something in a directory leads to the directory. -/
theorem Covers.directory {name : String} (h : Covers region (dir.child name)) :
    Through region [] dir ∧ region dir.place := by
  obtain ⟨hbase, hplace, -⟩ := through_append.1 (Path.child_eq dir name ▸ h.through)
  change region dir.base.place at hplace
  rcases dir.eq_base_or with heq | heq
  · rw [heq]
    rw [← heq] at hbase hplace ⊢
    exact ⟨hbase, hplace⟩
  · refine ⟨?_, Path.place_base dir ▸ hplace⟩
    rw [heq]
    exact through_append.2 ⟨hbase, hplace, trivial⟩

theorem isDirectory_congr (h : AgreeOn region disk other) (hpath : Through region [] path)
    (hplace : region path.place) : disk.isDirectory path ↔ other.isDirectory path := by
  rw [isDirectory_eq_true_iff, isDirectory_eq_true_iff, reaches_congr h hpath, h _ hplace]

end Disk

namespace FileSet

variable {files other : FileSet} {region : Place → Prop} {path : Path} {bytes : Bytes}
  {s t : Journaled Disk}

/-! ### Names -/

/-- The name of a file of the store; what follows the number of the store is the ending. -/
def fileName (files : FileSet) (ending : String) : String := "kvs_" ++ files.id.repr ++ "_" ++ ending

theorem toList_fileName (files : FileSet) (ending : String) : (files.fileName ending).toList =
    "kvs_".toList ++ (Nat.toDigits 10 files.id ++ ('_' :: ending.toList)) := by
  rw [fileName, String.toList_append, String.toList_append, String.toList_append, Nat.toList_repr,
    List.append_assoc, List.append_assoc]
  rfl

/-- Stores of different numbers have no file name in common, whatever the endings are. -/
theorem fileName_ne (h : other.id ≠ files.id) (ending ending' : String) :
    other.fileName ending ≠ files.fileName ending' := by
  intro heq
  have hchars := congrArg String.toList heq
  rw [toList_fileName, toList_fileName] at hchars
  have hdigit : ∀ {chars : List Char}, ∀ c ∈ ('_' :: chars).head?, c.isDigit = false := by
    intro chars c hc
    obtain rfl : '_' = c := by simpa using hc
    decide
  exact h (Slot.digits_append_inj hdigit hdigit (List.append_cancel_left hchars)).1

theorem fileName_ne_of_head {name : String} (h : name.toList.head? ≠ some 'k') (ending : String) :
    files.fileName ending ≠ name := by
  rintro rfl
  rw [toList_fileName] at h
  exact h rfl

theorem isName_fileName {ending : String} (h : '\x00' ∉ ending.toList) :
    Path.IsName (files.fileName ending) := by
  refine ⟨fileName_ne_of_head (by decide) _, fileName_ne_of_head (by decide) _,
    fileName_ne_of_head (by decide) _, ?_⟩
  have hdigits : '\x00' ∉ Nat.toDigits 10 files.id := fun hmem => by
    cases Nat.isDigit_of_mem_toDigits (by decide) (by decide) hmem
  rw [toList_fileName]
  simp [hdigits, h]

theorem place_file (files : FileSet) (ending : String) :
    (files.file ending).place = files.dir.place ++ [files.fileName ending] := by
  have hadvance : Path.advance files.dir.base.place (files.fileName ending) =
      files.dir.base.place ++ [files.fileName ending] := by
    have hne : ∀ name : String, name.toList.head? ≠ some 'k' → files.fileName ending ≠ name :=
      fun name hhead => fileName_ne_of_head hhead ending
    simp [Path.advance, hne "" (by decide), hne "." (by decide), hne ".." (by decide)]
  change (files.dir.child (files.fileName ending)).place = _
  rw [Path.child_eq, Path.place, List.foldl_append, List.foldl_cons, List.foldl_nil]
  exact hadvance.trans (by rw [Path.place_base])

theorem place_file_inj {ending ending' : String}
    (h : (files.file ending).place = (files.file ending').place) : ending = ending' := by
  rw [place_file, place_file] at h
  have hchars := congrArg String.toList (List.singleton_inj.1 (List.append_cancel_left h))
  rw [toList_fileName, toList_fileName] at hchars
  exact String.toList_injective
    (List.cons.inj (List.append_cancel_left (List.append_cancel_left hchars))).2

theorem utf8Len_le (chars : List Char) : String.utf8Len chars ≤ 4 * chars.length := by
  induction chars with
  | nil => simp
  | cons c rest ih =>
    have hsize := c.utf8Size_le_four
    rw [String.utf8Len_cons, List.length_cons]
    omega

/-- The number of a store takes few bytes of the name. -/
theorem utf8ByteSize_fileName (hid : files.id < 2 ^ 64) (ending : String) :
    (files.fileName ending).utf8ByteSize ≤ 85 + ending.utf8ByteSize := by
  have hlength : (Nat.toDigits 10 files.id).length ≤ 20 :=
    (Nat.length_toDigits_le_iff (by decide) (by decide)).2 (by omega)
  have hdigits : files.id.repr.utf8ByteSize ≤ 80 := by
    rw [← String.ofList_toList (s := files.id.repr), String.utf8ByteSize_ofList, Nat.toList_repr]
    exact (utf8Len_le _).trans (by omega)
  have hfront : "kvs_".utf8ByteSize = 4 := rfl
  have hbetween : "_".utf8ByteSize = 1 := rfl
  rw [fileName, String.utf8ByteSize_append, String.utf8ByteSize_append, String.utf8ByteSize_append]
  omega

/-- With a file of the store its files of no longer endings are reached. -/
theorem reaches_file {disk : Disk} {ending ending' : String}
    (h : disk.Reaches (files.file ending)) (hnull : '\x00' ∉ ending'.toList)
    (hlength : ending'.utf8ByteSize ≤ ending.utf8ByteSize) : disk.Reaches (files.file ending') := by
  have hname : '\x00' ∉ (files.fileName ending).toList :=
    h.1.1 _ (List.mem_append_right _ (List.mem_singleton_self _))
  have hchild : disk.Reaches (files.dir.child (files.fileName ending)) := h
  refine hchild.sibling ?_ ?_
  · rw [toList_fileName] at *
    simp_all
  · simp only [fileName, String.utf8ByteSize_append]
    omega

theorem slotPlace_eq (files : FileSet) (slot : Slot) : files.slotPlace slot =
    (files.file (slot.generation.repr ++ Slot.ending slot.part slot.draft)).place := by
  rw [place_file]
  rfl

/-! ### Files of a store -/

/-- The path is that of a file of the store. -/
def Owns (files : FileSet) (path : Path) : Prop := ∃ ending, path = files.file ending

theorem owns_data (files : FileSet) (generation : Nat) : files.Owns (files.data generation) :=
  ⟨_, rfl⟩

theorem owns_checksum (files : FileSet) (generation : Nat) :
    files.Owns (files.checksum generation) := ⟨_, rfl⟩

theorem owns_defaults (files : FileSet) : files.Owns files.defaults := ⟨_, rfl⟩

theorem owns_defaultsChecksum (files : FileSet) : files.Owns files.defaultsChecksum := ⟨_, rfl⟩

/-- The temporary name of a file of the store is one of its names too. -/
theorem Owns.temporary (h : files.Owns path) : files.Owns (temporary path) := by
  obtain ⟨ending, rfl⟩ := h
  refine ⟨ending ++ ".tmp", ?_⟩
  change (files.dir.child (files.fileName ending)).suffixed ".tmp" =
    files.dir.child (files.fileName (ending ++ ".tmp"))
  rw [Path.suffixed, Path.child_eq, Path.child_eq, List.dropLast_concat, List.getLastD_concat,
    fileName, fileName, String.append_assoc]

/-! ### Territories -/

/-- The places of the files of a store, with what is below them, and the places that the path of the
    directory leads through. -/
def territory (files : FileSet) (place : Place) : Prop :=
  (∃ ending, (files.file ending).place <+: place) ∨
    ∃ front : Path, front <+: files.dir.base ∧ place = Path.place front

/-- The paths of the files of a store lead through the region, to places in it. -/
def Inside (files : FileSet) (region : Place → Prop) : Prop :=
  ∀ ending, Disk.Covers region (files.file ending)

theorem inside_everywhere (files : FileSet) : files.Inside fun _ => True :=
  fun _ => ⟨Disk.through_of_fronts fun _ _ _ => trivial, fun _ _ => trivial⟩

theorem inside_territory (files : FileSet) : files.Inside files.territory := by
  intro ending
  refine ⟨Disk.through_of_fronts ?_, fun place hplace => .inl ⟨ending, hplace⟩⟩
  intro front hfront hne
  change front <+: files.dir.base ++ [files.fileName ending] at hfront
  rcases List.prefix_concat_iff.1 hfront with heq | hbase
  · exact absurd heq hne
  · exact .inr ⟨front, hbase, rfl⟩

theorem Inside.covers (h : files.Inside region) (hpath : files.Owns path) :
    Disk.Covers region path := by
  obtain ⟨ending, rfl⟩ := hpath
  exact h ending

theorem Inside.isDirectory_congr {disk disk' : Disk} (h : files.Inside region)
    (hagree : Disk.AgreeOn region disk disk') :
    disk.isDirectory files.dir ↔ disk'.isDirectory files.dir :=
  have hdir : Disk.Through region [] files.dir ∧ region files.dir.place :=
    Disk.Covers.directory (h "")
  Disk.isDirectory_congr hagree hdir.1 hdir.2

/-! ### Commits of other stores -/

/-- A commit changes nothing but the files of the store. -/
theorem commit_agrees {keep : Nat} {committed : Option Bytes} {u : Unit}
    (h : commit files keep committed bytes s = .ok u t) :
    s.state.AgreesOutside (files.slots fun _ => True) t.state := by
  obtain ⟨first, second, r, installed, finished, hfirst, hsecond, hrotate, hinstall, hfinish, rfl⟩ :=
    commit_eq_ok_iff.1 h
  have hslot : ∀ slot, files.slots (fun _ => True) (files.slotPath slot).place :=
    fun _ => slots_place files trivial
  have hrotated : second.AgreesOutside (files.slots fun _ => True) r.state := by
    refine (rotate_agrees hrotate).mono ?_
    rintro _ ⟨slot, -, rfl⟩
    exact ⟨slot, trivial, rfl⟩
  have hstaged := (Disk.write_agrees hfirst (hslot _)).trans (Disk.write_agrees hsecond (hslot _))
  have hmoved := (Disk.rename_agrees hinstall (hslot _) (hslot _)).trans
    (Disk.rename_agrees hfinish (hslot _) (hslot _))
  exact (hstaged.trans hrotated).trans hmoved

/-- What is in the tree of a file of a store is not in that of a file of another. -/
theorem not_slot_above (hdir : other.dir = files.dir) (hid : other.id ≠ files.id) {ending : String}
    {place : Place} (hplace : (other.file ending).place <+: place) (slot : Slot) :
    ¬ files.slotPlace slot <+: place := by
  intro hslot
  rw [slotPlace_eq, place_file] at hslot
  rw [place_file, hdir] at hplace
  have hsame := (List.prefix_of_prefix_length_le hplace hslot (by simp)).eq_of_length (by simp)
  exact fileName_ne hid _ _ (List.singleton_inj.1 (List.append_cancel_left hsame))

/-- A commit of another store in the same directory leaves the territory as it is, and the directory
    is there afterwards. -/
theorem commit_leaves_territory {keep : Nat} {committed : Option Bytes} {u : Unit}
    (hdir : other.dir = files.dir) (hid : other.id ≠ files.id)
    (hexists : s.state.isDirectory files.dir) (h : commit files keep committed bytes s = .ok u t) :
    Disk.AgreeOn other.territory s.state t.state ∧ t.state.isDirectory files.dir := by
  have hexists' : t.state.isDirectory files.dir :=
    Archive.isDirectory_of_read (commit_current h).1
  refine ⟨?_, hexists'⟩
  rintro place (⟨ending, hplace⟩ | ⟨front, hfront, rfl⟩)
  · refine (commit_agrees h place ?_).symm
    rintro _ ⟨slot, -, rfl⟩
    exact not_slot_above hdir hid hplace slot
  · have hprefix := hfront.trans other.dir.base_isPrefix
    rw [hdir] at hprefix
    have hfound := Disk.isDirectory_front hexists hprefix
    have hfound' := Disk.isDirectory_front hexists' hprefix
    rw [(Disk.isDirectory_eq_true_iff.1 hfound).2, (Disk.isDirectory_eq_true_iff.1 hfound').2]

end FileSet

end TypedStore
