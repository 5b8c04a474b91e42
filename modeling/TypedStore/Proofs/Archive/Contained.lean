/-
  TypedStore/Proofs/Archive/Contained.lean
  ========================================
  **What the data files of a store can hold.**

  If every data file that there is holds bytes of some kind, and bytes of that kind are committed, then
  every data file holds bytes of that kind afterwards, be the commit successful or not
  (`commit_preserves`). The same goes for calls (`Call.perform_contained`). So a run is followed by
  saying what is committed, and not how the files are moved.
-/
import TypedStore.Proofs.Archive.FailedCalls
import TypedStore.Proofs.Archive.Generations
import TypedStore.Proofs.Archive.Loading

namespace TypedStore

namespace FileSet

/-! ### Data files of one kind -/

/-- The data files, those under temporary names too, hold bytes of one kind. -/
def Contents.Admits (p : Bytes → Prop) (view : Contents) : Prop :=
  ∀ generation draft bytes, view ⟨.data, generation, draft⟩ = some (.file bytes) → p bytes

theorem Contents.Admits.put {p : Bytes → Prop} {view : Contents} (h : view.Admits p) (slot : Slot)
    {entry : Option Entry} (hentry : slot.part = .data → ∀ bytes, entry = some (.file bytes) → p bytes) :
    (view.put slot entry).Admits p := by
  intro generation draft bytes hbytes
  by_cases heq : (⟨.data, generation, draft⟩ : Slot) = slot
  · subst heq
    rw [Contents.put_self] at hbytes
    exact hentry rfl bytes hbytes
  · rw [Contents.put_ne heq] at hbytes
    exact h generation draft bytes hbytes

/-- In the slots stand files that can be reached, and the data among them is of one kind. -/
structure HoldsOnly (files : FileSet) (p : Bytes → Prop) (disk : Disk) : Prop where
  holds : files.Holds disk (files.held disk)
  admits : Contents.Admits p (files.held disk)

/-- The step from one disk to the other keeps data files to one kind, and keeps directories. -/
def Preserves (files : FileSet) (p : Bytes → Prop) (disk other : Disk) : Prop :=
  files.HoldsOnly p disk → files.HoldsOnly p other ∧ disk.HasDirectories other

section Preserves

variable {files : FileSet} {p : Bytes → Prop} {disk other : Disk} {view : Contents} {bytes : Bytes}
  {slot source target : Slot}

theorem holdsOnly_of_holds (h : files.Holds disk view) (hview : view.Admits p) :
    files.HoldsOnly p disk := by
  have heq : files.held disk = view := funext h.held_eq
  exact ⟨heq.symm ▸ h, heq.symm ▸ hview⟩

/-- Without files there is nothing that would not be of the kind. -/
theorem holdsOnly_of_held_eq_none (h : ∀ slot, files.held disk slot = none) :
    files.HoldsOnly p disk := by
  refine ⟨⟨fun _ => rfl, ?_, ?_⟩, ?_⟩
  · intro slot
    rw [h]
    simp
  · intro slot hslot
    exact absurd (h slot) hslot
  · intro generation draft bytes hbytes
    rw [h] at hbytes
    cases hbytes

theorem HoldsOnly.mono {q : Bytes → Prop} (h : files.HoldsOnly p disk)
    (hpq : ∀ bytes, p bytes → q bytes) : files.HoldsOnly q disk :=
  ⟨h.holds, fun generation draft bytes hbytes => hpq _ (h.admits generation draft bytes hbytes)⟩

theorem HoldsOnly.of_read {generation : Nat} (h : files.HoldsOnly p disk)
    (hread : disk.read (files.data generation) = .ok bytes) : p bytes := by
  rw [data_eq, read_slot_eq_ok_iff] at hread
  exact h.admits generation false bytes hread.2

theorem Preserves.refl (files : FileSet) (p : Bytes → Prop) (disk : Disk) :
    files.Preserves p disk disk := fun h => ⟨h, .refl disk⟩

theorem Preserves.trans {a b c : Disk} (hab : files.Preserves p a b) (hbc : files.Preserves p b c) :
    files.Preserves p a c := by
  intro h
  obtain ⟨hb, hdirs⟩ := hab h
  obtain ⟨hc, hdirs'⟩ := hbc hb
  exact ⟨hc, hdirs.trans hdirs'⟩

theorem write_preserves (hbytes : slot.part = .data → p bytes)
    (hwrite : disk.write (files.slotPath slot) bytes = .ok other) : files.Preserves p disk other := by
  intro h
  refine ⟨holdsOnly_of_holds (write_holds h.holds hwrite) (h.admits.put slot ?_),
    Disk.write_hasDirectories hwrite⟩
  intro hpart b hb
  cases hb
  exact hbytes hpart

/-- A file stays what it is when it is moved to a slot of the same part. -/
theorem rename_preserves (hpart : source.part = target.part)
    (hrename : disk.rename (files.slotPath source) (files.slotPath target) = .ok other) :
    files.Preserves p disk other := by
  intro h
  have hfile : ∃ bytes, files.held disk source = some (.file bytes) := by
    rcases Disk.rename_cases hrename with ⟨bytes, hbytes, -⟩ | ⟨hdirectory, -⟩
    · rw [place_slotPath] at hbytes
      exact ⟨bytes, hbytes⟩
    · rw [place_slotPath] at hdirectory
      exact absurd hdirectory (h.holds.no_directory source)
  obtain ⟨bytes, hbytes⟩ := hfile
  obtain ⟨hholds, hdirs⟩ := rename_holds h.holds hbytes hrename
  refine ⟨holdsOnly_of_holds hholds ((h.admits.put source ?_).put target ?_), hdirs⟩
  · intro _ b hb
    cases hb
  · intro htarget b hb
    cases hb
    obtain ⟨part, generation, draft⟩ := source
    obtain rfl : part = .data := hpart.trans htarget
    exact h.admits generation draft _ hbytes

theorem unset_preserves (files : FileSet) (p : Bytes → Prop) (disk : Disk) (slot : Slot) :
    files.Preserves p disk (disk.unset (files.slotPlace slot)) := by
  intro h
  have hdirs : disk.HasDirectories (disk.unset (files.slotPlace slot)) :=
    Disk.hasDirectories_unset (h.holds.no_directory slot)
  have hsome : ∀ other entry, (Contents.put (files.held disk) slot none) other = some entry →
      files.held disk other = some entry := by
    intro other entry hentry
    by_cases heq : other = slot
    · rw [heq, Contents.put_self] at hentry
      cases hentry
    · rw [Contents.put_ne heq] at hentry
      exact hentry
  have hholds : files.Holds (disk.unset (files.slotPlace slot))
      (Contents.put (files.held disk) slot none) := by
    refine ⟨?_, ?_, ?_⟩
    · intro other
      rw [held_unset]
      rfl
    · intro other hother
      exact h.holds.no_directory other (hsome other _ hother)
    · intro other hother
      obtain ⟨entry, hentry⟩ := Option.ne_none_iff_exists'.1 hother
      apply (h.holds.reached other ?_).mono hdirs
      rw [hsome other entry hentry]
      simp
  refine ⟨holdsOnly_of_holds hholds ?_, hdirs⟩
  intro generation draft bytes hbytes
  exact h.admits generation draft bytes (hsome _ _ hbytes)

/-! ### The steps of a commit -/

variable {part : Part} {generation keep : Nat} {committed : Option Bytes}

theorem writeFile_preserves (slot : Slot) (hbytes : slot.part = .data → p bytes) :
    (writeFile (files.slotPath slot) bytes).Leaves (files.Preserves p) := by
  apply Op.leaves_change (Preserves.refl files p)
  intro disk other hwrite
  exact write_preserves hbytes (Except.mapError_eq_ok_iff.1 hwrite)

theorem moveFile_preserves (source target : Slot) (hpart : source.part = target.part) :
    (moveFile (files.slotPath source) (files.slotPath target)).Leaves (files.Preserves p) := by
  apply Op.leaves_change (Preserves.refl files p)
  intro disk other hrename
  exact rename_preserves hpart (Except.mapError_eq_ok_iff.1 hrename)

theorem discard_preserves (files : FileSet) (p : Bytes → Prop) (slot : Slot) :
    (discard (files.slotPath slot)).Leaves (files.Preserves p) := by
  intro s
  obtain ⟨events, hdiscard⟩ := discard_eq (files.slotPath slot) s
  rw [Op.after_of_ok hdiscard]
  change files.Preserves p s.state (s.state.without (files.slotPath slot))
  rcases s.state.without_cases (files.slotPath slot) with heq | heq
  · rw [heq]
    exact .refl files p _
  · rw [heq, place_slotPath]
    exact unset_preserves files p s.state slot

theorem discard_throw_preserves (files : FileSet) (p : Bytes → Prop) (slot : Slot)
    (fault : StorageFault) :
    (discard (files.slotPath slot) >>= fun _ =>
      (throw fault : Op StorageFault Disk Unit)).Leaves (files.Preserves p) := by
  apply (discard_preserves files p slot).bind Preserves.trans
  intro _
  exact Op.leaves_throw (Preserves.refl files p) fault

theorem writeTemporary_preserves (hbytes : part = .data → p bytes) :
    (writeTemporary (files.slotPath ⟨part, generation, false⟩) bytes).Leaves
      (files.Preserves p) := by
  rw [writeTemporary, temporary_slotPath]
  apply (writeFile_preserves ⟨part, generation, true⟩ hbytes).attempt_bind Preserves.trans
  rintro (fault | _)
  · exact discard_throw_preserves files p _ fault
  · exact Op.leaves_pure (Preserves.refl files p) ()

theorem settle_preserves (files : FileSet) (p : Bytes → Prop) (part : Part) (generation : Nat) :
    (settle (files.slotPath ⟨part, generation, false⟩)).Leaves (files.Preserves p) := by
  rw [settle, temporary_slotPath]
  apply (moveFile_preserves ⟨part, generation, true⟩ ⟨part, generation, false⟩ rfl).attempt_bind
    Preserves.trans
  rintro (fault | _)
  · exact discard_throw_preserves files p _ fault
  · exact Op.leaves_pure (Preserves.refl files p) ()

theorem writeAtomic_preserves (hbytes : part = .data → p bytes) :
    (writeAtomic (files.slotPath ⟨part, generation, false⟩) bytes).Leaves (files.Preserves p) := by
  apply (writeTemporary_preserves hbytes).bind Preserves.trans
  intro _
  exact settle_preserves files p part generation

theorem moveIfPresent_preserves (source target : Slot) (hpart : source.part = target.part) :
    (moveIfPresent (files.slotPath source) (files.slotPath target)).Leaves
      (files.Preserves p) := by
  intro s
  by_cases hsource : s.state.contains (files.slotPath source)
  · have hmove : moveIfPresent (files.slotPath source) (files.slotPath target) s =
        moveFile (files.slotPath source) (files.slotPath target) s := by
      rw [moveIfPresent, Op.bind_of_ok (Op.state_apply s), if_pos hsource]
    rw [Op.after, hmove]
    exact moveFile_preserves source target hpart s
  · rw [Op.after_of_ok (moveIfPresent_eq_ok_iff (u := ()).2 (.inr ⟨hsource, rfl⟩))]
    exact .refl files p _

theorem moveUpFrom_preserves (files : FileSet) (p : Bytes → Prop) (generation : Nat) :
    (moveUpFrom files generation).Leaves (files.Preserves p) := by
  induction generation with
  | zero => exact Op.leaves_pure (Preserves.refl files p) ()
  | succ generation ih =>
    have hmove : ∀ part, (moveIfPresent (files.slotPath ⟨part, generation + 1, false⟩)
        (files.slotPath ⟨part, generation + 2, false⟩)).Leaves (files.Preserves p) :=
      fun part => moveIfPresent_preserves ⟨part, _, _⟩ ⟨part, _, _⟩ rfl
    apply (hmove .data).bind Preserves.trans
    intro _
    apply (hmove .checksum).bind Preserves.trans
    intro _
    exact ih

/-- Bytes of a checksum file are of any kind. -/
theorem checksum_ne_data {q : Prop} (h : Part.checksum = Part.data) : q := by
  cases h

theorem rotate_preserves (hcommitted : ∀ previous, committed = some previous → p previous) :
    (rotate files keep committed).Leaves (files.Preserves p) := by
  by_cases hnothing : committed = none ∨ keep < 2
  · intro s
    rw [Op.after_of_ok (rotate_eq_pure hnothing)]
    exact .refl files p _
  · obtain ⟨previous, rfl⟩ := Option.ne_none_iff_exists'.1 fun h => hnothing (.inl h)
    have hkeep : 2 ≤ keep := Nat.not_lt.1 fun h => hnothing (.inr h)
    simp only [rotate, hkeep, ↓reduceIte, data_eq, checksum_eq]
    apply (moveUpFrom_preserves files p _).bind Preserves.trans
    intro _
    apply (writeAtomic_preserves fun _ => hcommitted previous rfl).bind Preserves.trans
    intro _
    exact writeAtomic_preserves checksum_ne_data

theorem stage_preserves (hbytes : p bytes) :
    (stage files bytes).Leaves (files.Preserves p) := by
  simp only [stage, data_eq, checksum_eq, temporary_slotPath]
  apply (writeTemporary_preserves fun _ => hbytes).bind Preserves.trans
  intro _
  apply (writeTemporary_preserves checksum_ne_data).attempt_bind Preserves.trans
  rintro (fault | _)
  · exact discard_throw_preserves files p _ fault
  · exact Op.leaves_pure (Preserves.refl files p) ()

theorem install_preserves (hcommitted : ∀ previous, committed = some previous → p previous) :
    (install files keep committed).Leaves (files.Preserves p) := by
  have hmoved : (rotate files keep committed >>= fun _ =>
      moveFile (files.slotPath ⟨.data, 0, true⟩)
        (files.slotPath ⟨.data, 0, false⟩)).Leaves (files.Preserves p) := by
    apply (rotate_preserves hcommitted).bind Preserves.trans
    intro _
    exact moveFile_preserves ⟨.data, 0, true⟩ ⟨.data, 0, false⟩ rfl
  simp only [install, data_eq, checksum_eq, temporary_slotPath]
  apply hmoved.attempt_bind Preserves.trans
  rintro (fault | _)
  · apply (discard_preserves files p _).bind Preserves.trans
    intro _
    exact discard_throw_preserves files p _ fault
  · exact Op.leaves_pure (Preserves.refl files p) ()

theorem putBack_preserves (hcommitted : ∀ previous, committed = some previous → p previous) :
    (putBack files committed).Leaves (files.Preserves p) := by
  cases committed with
  | none =>
    refine Op.Leaves.attempt_bind (Op.leaves_change (Preserves.refl files p) ?_) Preserves.trans ?_
    · intro disk other hremove
      obtain ⟨-, -, rfl⟩ := Disk.remove_eq_ok_iff.1 (Except.mapError_eq_ok_iff.1 hremove)
      rw [data_eq, place_slotPath]
      exact unset_preserves files p disk _
    · rintro (fault | _)
      · exact Op.leaves_report (Preserves.refl files p) _
      · exact Op.leaves_pure (Preserves.refl files p) ()
  | some previous =>
    have hwrite : (writeAtomic (files.data 0) previous).Leaves (files.Preserves p) := by
      rw [data_eq]
      exact writeAtomic_preserves fun _ => hcommitted previous rfl
    apply hwrite.attempt_bind Preserves.trans
    rintro (fault | _)
    · exact Op.leaves_report (Preserves.refl files p) _
    · exact Op.leaves_pure (Preserves.refl files p) ()

theorem finish_preserves (hcommitted : ∀ previous, committed = some previous → p previous) :
    (finish files committed).Leaves (files.Preserves p) := by
  rw [finish, checksum_eq, temporary_slotPath]
  apply (moveFile_preserves ⟨.checksum, 0, true⟩ ⟨.checksum, 0, false⟩ rfl).attempt_bind
    Preserves.trans
  rintro (fault | _)
  · apply (discard_preserves files p _).bind Preserves.trans
    intro _
    apply (putBack_preserves hcommitted).bind Preserves.trans
    intro _
    exact Op.leaves_throw (Preserves.refl files p) fault
  · exact Op.leaves_pure (Preserves.refl files p) ()

/-- A commit, whatever comes of it, puts nothing in data files but the bytes that are committed and
    those that have been committed last, and what is in data files already. -/
theorem commit_preserves (hbytes : p bytes)
    (hcommitted : ∀ previous, committed = some previous → p previous) :
    (commit files keep committed bytes).Leaves (files.Preserves p) := by
  apply (stage_preserves hbytes).bind Preserves.trans
  intro _
  apply (install_preserves hcommitted).bind Preserves.trans
  intro _
  apply (finish_preserves hcommitted).bind Preserves.trans
  intro _
  exact Op.leaves_report (Preserves.refl files p) _

end Preserves

end FileSet

namespace Archive

variable {files : FileSet} {options : ArchiveOptions} {d opened : Journaled Disk} {archive : Archive}
  {s : Journaled Mounted} {c : Call} {p : Bytes → Prop}

/-! ### Loading -/

/-- The other disk is the same, if the directory is there already. -/
def Settled (dir : Path) (disk other : Disk) : Prop := disk.isDirectory dir → other = disk

theorem Settled.refl (dir : Path) (disk : Disk) : Settled dir disk disk := fun _ => rfl

theorem Settled.trans {dir : Path} {a b c : Disk} (hab : Settled dir a b) (hbc : Settled dir b c) :
    Settled dir a c := by
  intro hdir
  obtain rfl := hab hdir
  exact hbc hdir

/-- But for the making of the directory loading only looks at files. -/
theorem load_leaves {r : Disk → Disk → Prop} (hrefl : ∀ disk, r disk disk)
    (htrans : ∀ {a b c}, r a b → r b c → r a c)
    (hmake : ∀ disk : Disk, r disk (disk.makeDirectories files.dir).2) (options : ArchiveOptions) :
    (load files options).Leaves r := by
  have hopened : ∀ (committed : Option Bytes) (op : Op StorageFault Disk Json.RawObject),
      op.Leaves r → Op.Leaves r (op >>= fun entries =>
        (Op.report (.openedFiles (files.data 0) files.id entries.size options.mode options.keep) >>=
          fun _ => pure (⟨files, options.keep, entries, committed⟩ : Archive) :
            Op StorageFault Disk Archive)) := by
    intro committed op hop
    apply hop.bind htrans
    intro entries
    apply (Op.leaves_report hrefl _).bind htrans
    intro _
    exact Op.leaves_pure hrefl _
  unfold load
  by_cases hkeep : options.keep = 0
  · simp only [hkeep, ↓reduceIte]
    intro s
    rw [Op.after_of_error (Op.bind_of_error (Op.throw_apply StorageFault.noGenerations s))]
    exact hrefl s.state
  · simp only [hkeep, ↓reduceIte]
    apply (Op.leaves_step hmake).mapError.bind htrans
    intro _
    apply (Op.leaves_look hrefl _).bind htrans
    intro committed
    split
    · exact hopened _ _ (Op.leaves_pure hrefl _)
    · exact hopened _ _ (Op.leaves_pure hrefl _)
    · exact hopened _ _ (Op.leaves_throw hrefl _)
    · exact hopened _ _ (Op.leaves_look hrefl _)

theorem makeDirectories_settled (dir : Path) (disk : Disk) :
    Settled dir disk (disk.makeDirectories dir).2 := by
  intro hdir
  rw [Disk.makeDirectories_eq_self hdir]

/-- Where the directory is there, loading changes nothing. -/
theorem load_settled (files : FileSet) (options : ArchiveOptions) :
    (load files options).Leaves (Settled files.dir) :=
  load_leaves (Settled.refl _) Settled.trans (makeDirectories_settled _) options

/-- The archive is on these files, and what it takes to be in its data file is of one kind. -/
structure Admits (files : FileSet) (p : Bytes → Prop) (archive : Archive) : Prop where
  files_eq : archive.files = files
  committed : ∀ previous, archive.committed = some previous → p previous

theorem admits_of_load (h : load files options d = .ok archive opened)
    (hdisk : files.HoldsOnly p opened.state) : archive.Admits files p := by
  obtain ⟨disk, committed, entries, -, -, hread, -, rfl, rfl⟩ := load_eq_ok_iff.1 h
  refine ⟨rfl, ?_⟩
  rintro previous rfl
  exact hdisk.of_read (FileSet.readIfPresent_eq_some_iff.1 hread)

/-! ### Calls -/

/-- What a call has done, whatever came of it: nothing, or a commit. The archive is another
    afterwards only if the commit has succeeded. -/
theorem Call.after_cases (c : Call) (s : Journaled Mounted) :
    (c.perform.after s).state = s.state ∨ ∃ entries, c.Makes s.state entries ∧
      (c.perform.after s).state.disk = ((s.state.archive.files.commit s.state.archive.keep
        s.state.archive.committed entries.toBytes).after ⟨s.state.disk, s.events⟩).state ∧
      ((c.perform.after s).state.archive = s.state.archive ∨
        (c.perform.after s).state.archive =
          { s.state.archive with entries := entries, committed := some entries.toBytes }) := by
  cases hcall : c.perform s with
  | ok u t =>
    rw [Op.after_of_ok hcall]
    rcases Call.perform_cases hcall with ⟨-, rfl⟩ | ⟨entries, r, hmakes, hreplace, hstate⟩
    · exact .inl rfl
    · obtain ⟨r', hcommit, rfl⟩ := replace_eq_ok_iff.1 hreplace
      refine .inr ⟨entries, hmakes, ?_, .inr ?_⟩
      · rw [hstate, Op.after_of_ok hcommit]
      · rw [hstate]
  | error fault t =>
    rw [Op.after_of_error hcall]
    rcases Call.perform_error hcall with ⟨-, rfl⟩ | ⟨entries, r, hmakes, hcommit, rfl⟩
    · exact .inl rfl
    · refine .inr ⟨entries, hmakes, ?_, .inl rfl⟩
      rw [Op.after_of_error hcommit]

/-- A call, whatever comes of it, puts nothing in data files but what it makes and what has been
    committed before it. -/
theorem Call.perform_contained (hdisk : files.HoldsOnly p s.state.disk)
    (harchive : s.state.archive.Admits files p)
    (hmakes : ∀ entries, c.Makes s.state entries → p entries.toBytes) :
    files.HoldsOnly p (c.perform.after s).state.disk ∧
      s.state.disk.HasDirectories (c.perform.after s).state.disk ∧
      (c.perform.after s).state.archive.Admits files p := by
  rcases c.after_cases s with hsame | ⟨entries, hentries, hafter, harchive'⟩
  · rw [hsame]
    exact ⟨hdisk, .refl _, harchive⟩
  · rw [hafter, harchive.files_eq]
    have hcommit : (files.commit s.state.archive.keep s.state.archive.committed
        entries.toBytes).Leaves (files.Preserves p) :=
      FileSet.commit_preserves (hmakes entries hentries) harchive.committed
    obtain ⟨hdisk', hdirs⟩ := hcommit ⟨s.state.disk, s.events⟩ hdisk
    refine ⟨hdisk', hdirs, ?_⟩
    rcases harchive' with heq | heq
    · rw [heq]
      exact harchive
    · rw [heq]
      refine ⟨harchive.files_eq, ?_⟩
      rintro previous hprevious
      cases hprevious
      exact hmakes entries hentries

end Archive

end TypedStore
