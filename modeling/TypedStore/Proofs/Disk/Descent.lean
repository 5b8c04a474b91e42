/-
  TypedStore/Proofs/Disk/Descent.lean
  ===================================
  **Ways down, in trees.**

  A disk is a tree if everything on it is in a directory, so below what is missing there is nothing
  (`IsTree`). If a path runs into something missing it goes on from a last directory. From there it leads
  down (`Descends`), unless it leads up again from what is missing (`LeadsUpFromMissing`). On a way down
  what is missing on the way is missing at its end (`Descends.lookup?_eq_none`); a way that leads up
  again may end anywhere.
-/
import Mathlib.Data.List.Infix
import TypedStore.Proofs.Disk.Directories

namespace TypedStore

namespace Path

/-- A path without `..` leads down. -/
theorem foldl_advance_down {path : Path} (h : ".." ∉ path) (place : Place) :
    path.foldl advance place = place ++ path.filter fun part => part ≠ "" ∧ part ≠ "." := by
  induction path generalizing place with
  | nil => simp
  | cons part rest ih =>
    rw [List.mem_cons, not_or] at h
    obtain ⟨hpart, hrest⟩ := h
    rw [List.foldl_cons, ih hrest]
    by_cases hstay : part = "" ∨ part = "."
    · rcases hstay with rfl | rfl <;> simp [advance]
    · have hstay' : part ≠ "" ∧ part ≠ "." := not_or.1 hstay
      have hadvance : advance place part = place ++ [part] := by
        rw [advance, if_neg hstay, if_neg (Ne.symm hpart)]
      rw [hadvance, List.filter_cons_of_pos (by simpa using hstay'), List.append_assoc]
      rfl

end Path

namespace Disk

variable {disk other : Disk} {dir path : Path} {fault : DiskFault}

/-! ### Trees -/

/-- Everything is in a directory. -/
def IsTree (disk : Disk) : Prop :=
  ∀ entry ∈ disk.entries.toList, disk.lookup? entry.1.dropLast = some .directory

instance (disk : Disk) : Decidable disk.IsTree := by
  unfold IsTree
  infer_instance

/-- What is there is in a directory. -/
theorem IsTree.lookup?_dropLast (h : disk.IsTree) {place : Place} {entry : Entry}
    (hentry : disk.lookup? place = some entry) : disk.lookup? place.dropLast = some .directory := by
  by_cases hroot : place = []
  · rw [hroot]
    rfl
  · rw [lookup?, if_neg hroot] at hentry
    exact h _ (SortedMap.mem_toList_iff.2 hentry)

/-- Below what is missing there is nothing. -/
theorem IsTree.lookup?_below (h : disk.IsTree) {place : Place} (hnone : disk.lookup? place = none)
    (names : Place) : disk.lookup? (place ++ names) = none := by
  induction names generalizing place with
  | nil => rwa [List.append_nil]
  | cons name rest ih =>
    rw [show place ++ name :: rest = (place ++ [name]) ++ rest by simp]
    refine ih ?_
    cases hentry : disk.lookup? (place ++ [name]) with
    | none => rfl
    | some entry =>
      have hparent := h.lookup?_dropLast hentry
      rw [List.dropLast_concat, hnone] at hparent
      cases hparent

/-! ### Ways down -/

/-- The path leads up from something that is missing. -/
def LeadsUpFromMissing (disk : Disk) (path : Path) : Prop :=
  ∃ front ∈ path.inits, front.getLast? = some ".." ∧
    front.foldlM disk.follow [] = .error .notFound

instance (disk : Disk) (path : Path) : Decidable (disk.LeadsUpFromMissing path) := by
  unfold LeadsUpFromMissing
  infer_instance

theorem LeadsUpFromMissing.mono {front : Path} (h : disk.LeadsUpFromMissing front)
    (hfront : front <+: path) : disk.LeadsUpFromMissing path := by
  obtain ⟨start, hstart, hup⟩ := h
  exact ⟨start, (List.mem_inits _ _).2 (((List.mem_inits _ _).1 hstart).trans hfront), hup⟩

theorem LeadsUpFromMissing.of_child {name : String} (h : disk.LeadsUpFromMissing (dir.child name))
    (hname : name ≠ "..") : disk.LeadsUpFromMissing dir := by
  obtain ⟨front, hfront, hlast, hmissing⟩ := h
  rw [List.mem_inits, Path.child_eq, List.prefix_concat_iff] at hfront
  rcases hfront with rfl | hfront
  · simp [hname] at hlast
  · exact ⟨front, (List.mem_inits _ _).2 (hfront.trans dir.base_isPrefix), hlast, hmissing⟩

/-- The path leads to a directory, and from there it leads down. -/
def Descends (disk : Disk) (path : Path) : Prop :=
  ∃ front back, path = front ++ back ∧ disk.isDirectory front ∧ ".." ∉ back

/-! ### Following a path -/

theorem follow_directory_cases {place : Place} (h : disk.lookup? place = some .directory)
    (part : String) :
    disk.follow place part = .ok (Path.advance place part) ∨
      disk.follow place part = .error .tooLong := by
  unfold follow Path.advance
  simp only [h]
  split
  · exact .inl rfl
  · split
    · exact .inl rfl
    · split
      · exact .inr rfl
      · exact .inl rfl

/-- A path that cannot be followed is not to be followed any further. -/
theorem foldlM_follow_of_isPrefix {front : Path} {place : Place} (h : front <+: path)
    (hfault : front.foldlM disk.follow place = .error fault) :
    path.foldlM disk.follow place = .error fault := by
  obtain ⟨back, rfl⟩ := h
  rw [List.foldlM_append, hfault]
  rfl

theorem foldlM_follow_of_walks (h : disk.Walks [] path) :
    path.foldlM disk.follow [] = .ok path.place := foldlM_follow_eq_ok_iff.2 ⟨h, rfl⟩

theorem exists_follow_error (h : ¬ disk.Walks [] path) :
    ∃ reason, path.foldlM disk.follow [] = .error reason := by
  cases hfollow : path.foldlM disk.follow [] with
  | error reason => exact ⟨reason, rfl⟩
  | ok place => exact absurd (foldlM_follow_eq_ok_iff.1 hfollow).1 h

theorem not_walks_of_follow_error (h : path.foldlM disk.follow [] = .error fault) :
    ¬ disk.Walks [] path := by
  intro hwalks
  rw [foldlM_follow_of_walks hwalks] at h
  cases h

theorem read_of_follow_error (h : Sayable path)
    (hfault : path.foldlM disk.follow [] = .error fault) : disk.read path = .error fault := by
  rw [read, find, locate_of_sayable h, hfault]
  rfl

/-- Where a path that leads down runs into something missing, it leads to nothing. -/
theorem IsTree.lookup?_of_down (h : disk.IsTree) {place : Place} (hdown : ".." ∉ path)
    (hfault : path.foldlM disk.follow place = .error .notFound) :
    disk.lookup? (path.foldl Path.advance place) = none := by
  induction path generalizing place with
  | nil => cases hfault
  | cons part rest ih =>
    cases hentry : disk.lookup? place with
    | none =>
      rw [Path.foldl_advance_down hdown]
      exact h.lookup?_below hentry _
    | some entry =>
      rw [List.foldlM_cons] at hfault
      cases entry with
      | file bytes =>
        rw [follow, hentry] at hfault
        cases hfault
      | directory =>
        rw [List.foldl_cons]
        refine ih (fun hmem => hdown (List.mem_cons_of_mem _ hmem)) ?_
        rcases disk.follow_directory_cases hentry part with hnext | hlong
        · rwa [hnext] at hfault
        · rw [hlong] at hfault
          cases hfault

theorem Descends.front (h : disk.Descends path) {front : Path} (hfront : front <+: path) :
    disk.Descends front := by
  obtain ⟨found, back, rfl, hdir, hback⟩ := h
  rcases List.prefix_or_prefix_of_prefix hfront (List.prefix_append found back) with hshort | hlong
  · exact ⟨front, [], (List.append_nil front).symm, isDirectory_front hdir hshort, nofun⟩
  · obtain ⟨rest, rfl⟩ := hlong
    exact ⟨found, rest, rfl, hdir, fun hmem =>
      hback (((List.prefix_append_right_inj found).1 hfront).subset hmem)⟩

theorem Descends.append (h : disk.Descends path) {rest : Path} (hrest : ".." ∉ rest) :
    disk.Descends (path ++ rest) := by
  obtain ⟨found, back, rfl, hdir, hback⟩ := h
  refine ⟨found, back ++ rest, List.append_assoc .., hdir, fun hmem => ?_⟩
  exact (List.mem_append.1 hmem).elim hback hrest

theorem Descends.of_child {name : String} (h : disk.Descends (dir.child name)) :
    disk.Descends dir := by
  have hbase : disk.Descends dir.base := h.front (List.prefix_append _ _)
  rcases dir.eq_base_or with heq | heq
  · exact heq ▸ hbase
  · rw [heq]
    exact hbase.append (by decide)

/-- On the way to something that is missing there is a last directory. -/
theorem exists_last_directory {place : Place} (hplace : disk.lookup? place = some .directory)
    (hmissing : path.foldlM disk.follow place = .error .notFound) :
    ∃ front part rest, path = front ++ part :: rest ∧ disk.Walks place front ∧
      disk.lookup? (front.foldl Path.advance place) = some .directory ∧
      disk.follow (front.foldl Path.advance place) part =
        .ok (Path.advance (front.foldl Path.advance place) part) ∧
      disk.lookup? (Path.advance (front.foldl Path.advance place) part) = none := by
  induction path generalizing place with
  | nil => cases hmissing
  | cons part rest ih =>
    rw [List.foldlM_cons] at hmissing
    rcases disk.follow_directory_cases hplace part with hnext | hlong
    · rw [hnext, Except.ok_bind] at hmissing
      obtain ⟨-, hlength, -⟩ := follow_eq_ok_iff.1 hnext
      cases hentry : disk.lookup? (Path.advance place part) with
      | none => exact ⟨[], part, rest, rfl, trivial, hplace, hnext, hentry⟩
      | some entry =>
        cases entry with
        | directory =>
          obtain ⟨front, next, more, rfl, hwalks, hlast⟩ := ih hentry hmissing
          exact ⟨part :: front, next, more, rfl, ⟨hplace, hlength, hwalks⟩, hlast⟩
        | file bytes =>
          cases rest with
          | nil => cases hmissing
          | cons next more =>
            rw [List.foldlM_cons, follow, hentry] at hmissing
            cases hmissing
    · rw [hlong] at hmissing
      cases hmissing

/-- From the last directory on the way to something that is missing the path leads down, unless it leads
    up from something that is missing. -/
theorem descends_of_missing (htree : disk.IsTree) (hup : ¬ disk.LeadsUpFromMissing path)
    (hsayable : Sayable path) (hmissing : path.foldlM disk.follow [] = .error .notFound) :
    disk.Descends path := by
  obtain ⟨front, part, rest, rfl, hwalks, hdir, hnext, hnone⟩ := exists_last_directory rfl hmissing
  refine ⟨front, part :: rest, rfl, isDirectory_eq_true_iff.2
    ⟨⟨hsayable.front (List.prefix_append _ _), hwalks⟩, hdir⟩, ?_⟩
  rw [List.mem_cons, not_or]
  constructor
  · -- Above a directory there is a directory.
    rintro rfl
    cases (htree.lookup?_dropLast hdir).symm.trans hnone
  · intro hmem
    obtain ⟨between, more, rfl⟩ := List.append_of_mem hmem
    refine hup ⟨front ++ part :: (between ++ [".."]), ?_, ?_, ?_⟩
    · rw [List.mem_inits]
      exact ⟨more, by simp⟩
    · rw [← List.cons_append, ← List.append_assoc, List.getLast?_concat]
    · rw [List.foldlM_append, foldlM_follow_of_walks hwalks, Except.ok_bind, List.foldlM_cons]
      change (disk.follow (front.foldl Path.advance []) part >>= _) = _
      rw [hnext, Except.ok_bind]
      cases between with
      | nil =>
        rw [List.nil_append, List.foldlM_cons, follow, hnone]
        rfl
      | cons first others =>
        rw [List.cons_append, List.foldlM_cons, follow, hnone]
        rfl

/-- The way down from something that is missing leads below it. -/
theorem Descends.place_isPrefix (h : disk.Descends path) {front : Path} (hfront : front <+: path)
    (hnone : disk.lookup? front.place = none) : front.place <+: path.place := by
  obtain ⟨found, back, rfl, hdir, hback⟩ := h
  rcases List.prefix_or_prefix_of_prefix hfront (List.prefix_append found back) with hshort | hlong
  · obtain ⟨-, hfound⟩ := isDirectory_eq_true_iff.1 (isDirectory_front hdir hshort)
    rw [hfound] at hnone
    cases hnone
  · obtain ⟨rest, rfl⟩ := hlong
    obtain ⟨more, rfl⟩ := (List.prefix_append_right_inj found).1 hfront
    have hmore : ".." ∉ more := fun hmem => hback (List.mem_append_right rest hmem)
    have hsplit : Path.place ((found ++ rest) ++ more) =
        more.foldl Path.advance (Path.place (found ++ rest)) := List.foldl_append
    rw [← List.append_assoc, hsplit, Path.foldl_advance_down hmore]
    exact List.prefix_append _ _

/-- Where a path that leads down runs into something missing, it leads to nothing. -/
theorem Descends.lookup?_eq_none (h : disk.Descends path) (htree : disk.IsTree)
    (hmissing : path.foldlM disk.follow [] = .error .notFound) :
    disk.lookup? path.place = none := by
  obtain ⟨found, back, rfl, hdir, hback⟩ := h
  obtain ⟨⟨-, hwalks⟩, -⟩ := isDirectory_eq_true_iff.1 hdir
  rw [List.foldlM_append, foldlM_follow_of_walks hwalks, Except.ok_bind] at hmissing
  rw [Path.place, List.foldl_append]
  exact htree.lookup?_of_down hback hmissing

/-- Where a path that leads down runs into something missing, it does not run into a file. -/
theorem Descends.not_file (h : disk.Descends path) (htree : disk.IsTree) {front : Path}
    (hfront : front <+: path) (hmissing : path.foldlM disk.follow [] = .error .notFound)
    {bytes : Bytes} : disk.lookup? front.place ≠ some (.file bytes) := by
  intro hfile
  by_cases hwalks : disk.Walks [] front
  · obtain ⟨back, rfl⟩ := hfront
    rw [List.foldlM_append, foldlM_follow_of_walks hwalks, Except.ok_bind] at hmissing
    cases back with
    | nil => cases hmissing
    | cons part rest =>
      rw [List.foldlM_cons, follow, hfile] at hmissing
      cases hmissing
  · obtain ⟨reason, hreason⟩ := exists_follow_error hwalks
    cases hmissing.symm.trans (foldlM_follow_of_isPrefix hfront hreason)
    rw [(h.front hfront).lookup?_eq_none htree hreason] at hfile
    cases hfile

end Disk

end TypedStore
