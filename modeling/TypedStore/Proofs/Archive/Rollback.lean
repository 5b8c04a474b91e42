/-
  TypedStore/Proofs/Archive/Rollback.lean
  =======================================
  **What a commit that fails leaves on disk.**

  A commit fails before, in or after the moving of older generations. If its drafts cannot both be
  written it leaves none of them (`stage_error`). From then on it takes back what it has done itself,
  but not what has become of older generations: the drafts are removed, and the data file is what it
  was or, if it had been replaced, what was committed last (`RollsBack`, `commit_error`). If the bytes
  held as committed are those of the data file, all else is as before (`abandons_of_commit_error`).
-/
import TypedStore.Proofs.Archive.Failures

namespace TypedStore.FileSet

variable {files : FileSet} {disk other : Disk} {s t : Journaled Disk} {slot : Slot} {bytes : Bytes}
  {u : Unit} {fault : StorageFault} {keep : Nat} {committed : Option Bytes}

theorem contains_slotPath_iff :
    disk.contains (files.slotPath slot) ↔
      disk.Reaches (files.slotPath slot) ∧ (files.held disk slot).isSome := by
  rw [Disk.contains_eq_true_iff, place_slotPath]
  rfl

theorem not_contains_of_held (h : files.held disk slot = none) :
    ¬ disk.contains (files.slotPath slot) := by
  intro hcontains
  have hsome := (contains_slotPath_iff.1 hcontains).2
  rw [h] at hsome
  cases hsome

/-! ### The drafts -/

/-- The drafts of a new generation can be written. -/
def Stageable (files : FileSet) (disk : Disk) : Prop :=
  ∀ part, disk.Reaches (files.slotPath ⟨part, 0, true⟩) ∧
    files.held disk ⟨part, 0, true⟩ ≠ some .directory

/-- The disk with the drafts of a new generation. -/
def staged (files : FileSet) (disk : Disk) (bytes : Bytes) : Disk :=
  (disk.set (files.slotPlace ⟨.data, 0, true⟩) (.file bytes)).set
    (files.slotPlace ⟨.checksum, 0, true⟩) (.file (Checksum.fileFor bytes))

theorem stage_eq_ok_iff_stageable :
    stage files bytes s = .ok u t ↔
      files.Stageable s.state ∧ t = ⟨files.staged s.state bytes, s.events⟩ := by
  rw [stage_eq_ok_iff]
  constructor
  · rintro ⟨first, second, hfirst, hsecond, rfl⟩
    obtain ⟨hreaches, hdata, rfl⟩ := write_slot_eq_ok_iff.1 hfirst
    obtain ⟨-, hchecksum, rfl⟩ := write_slot_eq_ok_iff.1 hsecond
    refine ⟨?_, rfl⟩
    intro part
    cases part with
    | data => exact ⟨hreaches, hdata⟩
    | checksum => exact ⟨Reaches.part hreaches fun h => h, by simpa using hchecksum⟩
  · rintro ⟨hstage, rfl⟩
    have hfirst := write_slot_eq_ok_iff.2
      ⟨(hstage .data).1, (hstage .data).2, (rfl : s.state.set _ (.file bytes) = _)⟩
    refine ⟨_, _, hfirst, write_slot_eq_ok_iff.2 ⟨?_, ?_, rfl⟩, rfl⟩
    · exact (hstage .checksum).1.mono (Disk.write_hasDirectories hfirst)
    · simpa using (hstage .checksum).2

theorem held_staged (slot : Slot) :
    files.held (files.staged disk bytes) slot =
      if slot = ⟨.checksum, 0, true⟩ then some (.file (Checksum.fileFor bytes))
      else if slot = ⟨.data, 0, true⟩ then some (.file bytes)
      else files.held disk slot := by
  rw [staged, held_set, held_set]

theorem lookup?_staged_ne {place : Place} (h : ∀ part, place ≠ files.slotPlace ⟨part, 0, true⟩) :
    (files.staged disk bytes).lookup? place = disk.lookup? place := by
  rw [staged, Disk.lookup?_set_ne (h .checksum), Disk.lookup?_set_ne (h .data)]

/-- Drafts that cannot both be written are not left behind. -/
theorem stage_error (h : stage files bytes s = .error fault t) :
    t.state = s.state ∨ t.state = s.state.unset (files.slotPlace ⟨.data, 0, true⟩) := by
  rcases Op.bind_eq_error_iff.1 h with hdata | ⟨_, r, hdata, hrest⟩
  · exact .inl (writeTemporary_error hdata)
  rw [Op.attempt_bind_eq_iff] at hrest
  rcases hrest with ⟨_, r', -, hpure⟩ | ⟨e, r', hchecksum, hthrow⟩
  · cases hpure
  · obtain ⟨first, hfirst, rfl⟩ := writeTemporary_eq_ok_iff.1 hdata
    refine .inr ?_
    rw [discard_throw hthrow, writeTemporary_error hchecksum, Disk.without_of_write hfirst,
      data_eq, temporary_slotPath, place_slotPath]

/-! ### Taking back what has been done -/

/-- What a commit that has moved older generations leaves if it fails: its drafts are removed, and the
    data file is what it was or what was committed last. -/
structure RollsBack (files : FileSet) (committed : Option Bytes) (rotated other : Disk) : Prop where
  data : files.held other ⟨.data, 0, false⟩ = files.held rotated ⟨.data, 0, false⟩ ∨
    files.held other ⟨.data, 0, false⟩ = committed.map .file
  same : ∀ place, place ≠ files.slotPlace ⟨.data, 0, false⟩ →
    (∀ part, place ≠ files.slotPlace ⟨part, 0, true⟩) →
      other.lookup? place = rotated.lookup? place
  removed : ∀ part, ¬ other.contains (files.slotPath ⟨part, 0, true⟩)

theorem RollsBack.held_older {rotated : Disk} (h : files.RollsBack committed rotated other)
    (hslot : Older slot) : files.held other slot = files.held rotated slot := by
  have hne : ∀ part draft, files.slotPlace slot ≠ files.slotPlace ⟨part, 0, draft⟩ :=
    fun part draft heq => hslot.ne_current part draft (files.slotPlace_inj.1 heq)
  exact h.same _ (hne .data false) fun part => hne part true

/-- A place that is in no older generation and no draft. -/
theorem ne_draft_of_outside {place : Place}
    (h : ∀ root, files.slots (fun slot => Older slot ∨ slot.draft) root → ¬ root <+: place)
    (part : Part) : place ≠ files.slotPlace ⟨part, 0, true⟩ := by
  rintro rfl
  exact h _ ⟨_, .inr rfl, rfl⟩ List.prefix_rfl

/-- The drafts of a new generation have been written and older generations have been moved, as far as
    they could be. -/
structure Prepared (files : FileSet) (disk : Disk) (bytes : Bytes) (other : Disk) : Prop where
  agrees : disk.AgreesOutside (files.slots fun slot => Older slot ∨ slot.draft) other
  data : files.held other ⟨.data, 0, true⟩ = some (.file bytes)
  checksum : files.held other ⟨.checksum, 0, true⟩ = some (.file (Checksum.fileFor bytes))
  drafts : ∀ slot : Slot, slot.draft → (∀ part, slot ≠ ⟨part, 0, true⟩) →
    files.held other slot = files.held disk slot ∨ files.held other slot = none

theorem prepared_of_shifts (h : files.Shifts (files.staged disk bytes) other) :
    files.Prepared disk bytes other := by
  have hzero : ∀ part, ¬ Older ⟨part, 0, true⟩ := fun _ => Nat.not_succ_le_zero 0
  refine ⟨?_, ?_, ?_, ?_⟩
  · intro place hplace
    refine (h.agrees place ?_).trans (lookup?_staged_ne (ne_draft_of_outside hplace))
    rintro root ⟨slot, hslot, rfl⟩
    exact hplace _ ⟨slot, .inl hslot, rfl⟩
  · rw [held_of_agrees h.agrees (hzero _), held_staged]
    simp
  · rw [held_of_agrees h.agrees (hzero _), held_staged]
    simp
  · intro slot hdraft hne
    rcases h.drafts slot hdraft with heq | hnone
    · rw [heq, held_staged, if_neg (hne .checksum), if_neg (hne .data)]
      exact .inl rfl
    · exact .inr hnone

theorem install_error (h : install files keep committed s = .error fault t) :
    t.state = (((rotate files keep committed).after s).state.without
      (files.slotPath ⟨.data, 0, true⟩)).without (files.slotPath ⟨.checksum, 0, true⟩) := by
  rw [install, Op.attempt_bind_eq_iff] at h
  rcases h with ⟨_, r, -, hpure⟩ | ⟨e, r, hmoved, hrest⟩
  · cases hpure
  have hrotated : r.state = ((rotate files keep committed).after s).state := by
    rcases Op.bind_eq_error_iff.1 hmoved with hrotate | ⟨_, r', hrotate, hmove⟩
    · rw [Op.after_of_error hrotate]
    · rw [Op.after_of_ok hrotate, moveFile_error hmove]
  obtain ⟨events, hdiscard⟩ := discard_eq (temporary (files.data 0)) r
  change (discard (temporary (files.data 0)) >>= _) r = _ at hrest
  rw [Op.bind_of_ok hdiscard] at hrest
  rw [discard_throw hrest, hrotated, data_eq, checksum_eq, temporary_slotPath, temporary_slotPath]

theorem rollsBack_of_install_error {rotated : Disk} (hprepared : files.Prepared disk bytes rotated)
    (hrotated : ((rotate files keep committed).after s).state = rotated)
    (h : install files keep committed s = .error fault t) :
    files.RollsBack committed rotated t.state := by
  have hremoved := install_error h
  rw [hrotated] at hremoved
  rw [hremoved]
  refine ⟨.inl ?_, ?_, ?_⟩
  · rw [held_without_ne (by simp), held_without_ne (by simp)]
  · intro place _ hne
    rw [Disk.lookup?_without_ne (by rw [place_slotPath]; exact hne .checksum),
      Disk.lookup?_without_ne (by rw [place_slotPath]; exact hne .data)]
  · -- Where the drafts can still be reached they could be removed.
    intro part hcontains
    have hbefore := (contains_slotPath_iff.1 hcontains).1.mono Disk.without_hasDirectories
    refine not_contains_of_held ?_ hcontains
    cases part with
    | data =>
      rw [held_without_ne (by simp), without_slotPath
        (hbefore.mono Disk.without_hasDirectories) hprepared.data]
      simp
    | checksum =>
      rw [without_slotPath hbefore (by rw [held_without_ne (by simp)]; exact hprepared.checksum)]
      simp

theorem putBack_some {previous : Bytes} (hreaches : s.state.Reaches (files.slotPath ⟨.data, 0, true⟩))
    (hdraft : files.held s.state ⟨.data, 0, true⟩ ≠ some .directory)
    (hdata : files.held s.state ⟨.data, 0, false⟩ ≠ some .directory) :
    putBack files (some previous) s = .ok () ⟨((s.state.set (files.slotPlace ⟨.data, 0, true⟩)
      (.file previous)).unset (files.slotPlace ⟨.data, 0, true⟩)).set
        (files.slotPlace ⟨.data, 0, false⟩) (.file previous), s.events⟩ := by
  have hwrite := write_slot_eq_ok_iff.2
    ⟨hreaches, hdraft, (rfl : s.state.set _ (.file previous) = _)⟩
  have hdirs := Disk.write_hasDirectories hwrite
  have hfile : files.held (s.state.set (files.slotPlace ⟨.data, 0, true⟩) (.file previous))
      ⟨.data, 0, true⟩ = some (.file previous) := by
    rw [held_set, if_pos rfl]
  have hmove : (s.state.set (files.slotPlace ⟨.data, 0, true⟩) (.file previous)).rename
      (files.slotPath ⟨.data, 0, true⟩) (files.slotPath ⟨.data, 0, false⟩) = .ok _ :=
    (rename_slot_eq_ok_iff hfile).2 ⟨hreaches.mono hdirs,
      (Reaches.part hreaches fun _ => rfl).mono hdirs, by simpa using hdata, rfl⟩
  rw [← temporary_slotPath] at hwrite hmove
  have hatomic : writeAtomic (files.data 0) previous s = .ok () _ :=
    writeAtomic_eq_ok_iff.2 ⟨_, _, hwrite, hmove, rfl⟩
  rw [putBack, Op.bind_of_ok (Op.attempt_of_ok hatomic)]
  rfl

theorem putBack_none (hreaches : s.state.Reaches (files.slotPath ⟨.data, 0, false⟩))
    (hfile : files.held s.state ⟨.data, 0, false⟩ = some (.file bytes)) :
    putBack files none s =
      .ok () ⟨s.state.unset (files.slotPlace ⟨.data, 0, false⟩), s.events⟩ := by
  have hremove : s.state.remove (files.data 0) = .ok _ :=
    Disk.remove_eq_ok_iff.2 ⟨hreaches, ⟨bytes, by rw [data_eq, place_slotPath]; exact hfile⟩, rfl⟩
  have hchange : (Op.change fun disk => (disk.remove (files.data 0)).mapError StorageFault.disk) s =
      .ok () ⟨_, s.events⟩ :=
    Op.change_eq_ok_iff.2 ⟨_, Except.mapError_eq_ok_iff.2 hremove, rfl⟩
  rw [putBack, Op.bind_of_ok (Op.attempt_of_ok hchange), data_eq, place_slotPath]
  rfl

/-- Where a new data file has been renamed into place the last one can be put back, and nothing else
    changes by it. -/
theorem putBack_restores (committed : Option Bytes)
    (hreaches : s.state.Reaches (files.slotPath ⟨.data, 0, true⟩))
    (hdraft : files.held s.state ⟨.data, 0, true⟩ = none)
    (hdata : files.held s.state ⟨.data, 0, false⟩ = some (.file bytes)) :
    ∃ t, putBack files committed s = .ok () t ∧
      files.held t.state ⟨.data, 0, false⟩ = committed.map .file ∧
      ∀ place, place ≠ files.slotPlace ⟨.data, 0, false⟩ →
        t.state.lookup? place = s.state.lookup? place := by
  cases committed with
  | none =>
    refine ⟨_, putBack_none (Reaches.part hreaches fun _ => rfl) hdata, ?_, ?_⟩
    · simp
    · intro place hplace
      exact Disk.lookup?_unset_ne hplace
  | some previous =>
    refine ⟨_, putBack_some hreaches (by rw [hdraft]; simp) (by rw [hdata]; simp), ?_, ?_⟩
    · simp
    · intro place hplace
      rw [Disk.lookup?_set_ne hplace]
      by_cases hsame : place = files.slotPlace ⟨.data, 0, true⟩
      · rw [hsame, Disk.lookup?_unset_self (files.slotPlace_ne_root _)]
        exact hdraft.symm
      · rw [Disk.lookup?_unset_ne hsame, Disk.lookup?_set_ne hsame]

/-- If the checksum cannot be renamed into place its draft is removed, and the data file is put
    back. -/
theorem finish_error (h : finish files committed s = .error fault t) :
    ∃ events, ∀ r,
      putBack files committed
          ⟨s.state.without (files.slotPath ⟨.checksum, 0, true⟩), events⟩ = .ok () r →
        t = r := by
  rw [finish, Op.attempt_bind_eq_iff] at h
  rcases h with ⟨_, r, -, hpure⟩ | ⟨e, r, hmove, hrest⟩
  · cases hpure
  obtain rfl := moveFile_error hmove
  obtain ⟨events, hdiscard⟩ := discard_eq (temporary (files.checksum 0)) r
  change (discard (temporary (files.checksum 0)) >>= _) r = _ at hrest
  rw [Op.bind_of_ok hdiscard, checksum_eq, temporary_slotPath] at hrest
  refine ⟨events, fun r' hback => ?_⟩
  change (putBack files committed >>= _) _ = _ at hrest
  rw [Op.bind_of_ok hback] at hrest
  cases hrest
  rfl

theorem rollsBack_of_finish_error {r : Journaled Disk} (hprepared : files.Prepared disk bytes r.state)
    (hmove : r.state.rename (files.slotPath ⟨.data, 0, true⟩) (files.slotPath ⟨.data, 0, false⟩) =
      .ok s.state) (h : finish files committed s = .error fault t) :
    files.RollsBack committed r.state t.state := by
  have hdirs := Disk.rename_file_hasDirectories (by rw [place_slotPath]; exact hprepared.data) hmove
  obtain ⟨hreaches, -, -, hmoved⟩ := (rename_slot_eq_ok_iff hprepared.data).1 hmove
  have hheld : ∀ slot, files.held s.state slot =
      if slot = ⟨.data, 0, false⟩ then some (.file bytes)
      else if slot = ⟨.data, 0, true⟩ then none
      else files.held r.state slot := by
    intro slot
    rw [hmoved, held_set, held_unset]
  have hchecksum : files.held s.state ⟨.checksum, 0, true⟩ =
      some (.file (Checksum.fileFor bytes)) := by
    rw [hheld]
    exact hprepared.checksum
  -- The draft of the checksum is removed, and then the last data is put back.
  have hremoved := without_slotPath ((Reaches.part hreaches fun h => h).mono hdirs) hchecksum
  have hdirs' : s.state.HasDirectories
      (s.state.unset (files.slotPlace ⟨.checksum, 0, true⟩)) :=
    Disk.hasDirectories_unset (by rw [← held, hchecksum]; simp)
  have hdata : files.held (s.state.unset (files.slotPlace ⟨.checksum, 0, true⟩))
      ⟨.data, 0, false⟩ = some (.file bytes) := by
    simp [hheld]
  obtain ⟨events, hback⟩ := finish_error h
  rw [hremoved] at hback
  obtain ⟨back, hput, hrestored, hsame⟩ := putBack_restores
    (s := ⟨s.state.unset (files.slotPlace ⟨.checksum, 0, true⟩), events⟩) committed
    ((hreaches.mono hdirs).mono hdirs') (by simp [hheld]) hdata
  rw [hback _ hput]
  refine ⟨.inr hrestored, ?_, ?_⟩
  · intro place hcurrent hne
    rw [hsame place hcurrent, Disk.lookup?_unset_ne (hne .checksum), hmoved,
      Disk.lookup?_set_ne hcurrent, Disk.lookup?_unset_ne (hne .data)]
  · intro part
    have hdraft : files.held back.state ⟨part, 0, true⟩ =
        files.held (s.state.unset (files.slotPlace ⟨.checksum, 0, true⟩)) ⟨part, 0, true⟩ :=
      hsame _ (by simp)
    apply not_contains_of_held
    rw [hdraft]
    cases part with
    | data => simp [hheld]
    | checksum => simp

/-- Where a commit fails: at its drafts, which are then not left behind, or later, and then it takes
    back what it has done since older generations have been moved. -/
theorem commit_error (h : commit files keep committed bytes s = .error fault t) :
    (¬ files.Stageable s.state ∧
      (t.state = s.state ∨ t.state = s.state.unset (files.slotPlace ⟨.data, 0, true⟩))) ∨
    (files.Stageable s.state ∧ files.RollsBack committed
      ((rotate files keep committed).after ⟨files.staged s.state bytes, s.events⟩).state
        t.state) := by
  rcases Op.bind_eq_error_iff.1 h with hstage | ⟨_, r, hstage, hrest⟩
  · refine .inl ⟨?_, stage_error hstage⟩
    intro hstageable
    have hok : stage files bytes s = .ok () _ := stage_eq_ok_iff_stageable.2 ⟨hstageable, rfl⟩
    rw [hok] at hstage
    cases hstage
  obtain ⟨hstageable, rfl⟩ := stage_eq_ok_iff_stageable.1 hstage
  refine .inr ⟨hstageable, ?_⟩
  have hprepared := prepared_of_shifts
    (rotate_shifts files keep committed ⟨files.staged s.state bytes, s.events⟩)
  rcases Op.bind_eq_error_iff.1 hrest with hinstall | ⟨_, r, hinstall, hlast⟩
  · exact rollsBack_of_install_error hprepared rfl hinstall
  obtain ⟨rotated, installed, hrotate, hmove, rfl⟩ := install_eq_ok_iff.1 hinstall
  rw [Op.after_of_ok hrotate] at hprepared ⊢
  rcases Op.bind_eq_error_iff.1 hlast with hfinish | ⟨_, r, -, hreport⟩
  · exact rollsBack_of_finish_error hprepared hmove hfinish
  · cases hreport

/-! ### Older generations -/

/-- Older generations are not moved back. -/
theorem held_older_of_commit_error (h : commit files keep committed bytes s = .error fault t)
    (hslot : Older slot) :
    (¬ files.Stageable s.state ∧ files.held t.state slot = files.held s.state slot) ∨
    (files.Stageable s.state ∧ files.held t.state slot = files.held
      ((rotate files keep committed).after ⟨files.staged s.state bytes, s.events⟩).state slot) := by
  rcases commit_error h with ⟨hnot, hsame | hremoved⟩ | ⟨hstageable, hback⟩
  · exact .inl ⟨hnot, by rw [hsame]⟩
  · refine .inl ⟨hnot, ?_⟩
    rw [hremoved, held_unset, if_neg (hslot.ne_current .data true)]
  · exact .inr ⟨hstageable, hback.held_older hslot⟩

theorem held_staged_older (hslot : Older slot) :
    files.held (files.staged disk bytes) slot = files.held disk slot := by
  rw [held_staged, if_neg (hslot.ne_current .checksum true), if_neg (hslot.ne_current .data true)]

/-- Once older generations have been moved up generation one is what was committed last. -/
theorem held_rotate_one {previous : Bytes} (hkeep : 2 ≤ keep)
    (h : rotate files keep (some previous) s = .ok u t) :
    files.held t.state ⟨.data, 1, false⟩ = some (.file previous) ∧
      files.held t.state ⟨.checksum, 1, false⟩ = some (.file (Checksum.fileFor previous)) := by
  obtain ⟨moved, data, -, hdata, hchecksum⟩ := (rotate_eq_ok_iff hkeep).1 h
  constructor
  · rw [held_writeAtomic hchecksum, if_neg (by simp), if_neg (by simp), held_writeAtomic hdata,
      if_pos rfl]
  · rw [held_writeAtomic hchecksum, if_pos rfl]

/-! ### What is left of it -/

/-- What a commit that fails leaves: outside the older generations and the drafts nothing has
    changed, and a draft that is there is one that has been lying about. -/
structure Abandons (files : FileSet) (disk other : Disk) : Prop where
  agrees : disk.AgreesOutside (files.slots fun slot => Older slot ∨ slot.draft) other
  drafts : ∀ slot : Slot, slot.draft → other.contains (files.slotPath slot) →
    files.held other slot = files.held disk slot

theorem abandons_unset (part : Part) :
    files.Abandons disk (disk.unset (files.slotPlace ⟨part, 0, true⟩)) := by
  refine ⟨Disk.unset_agrees ⟨_, .inr rfl, rfl⟩, ?_⟩
  intro slot _ hcontains
  by_cases hslot : slot = ⟨part, 0, true⟩
  · subst hslot
    exact absurd hcontains (not_contains_of_held (by simp))
  · rw [held_unset, if_neg hslot]

/-- The bytes that are held as committed are those of the data file, or there are neither. -/
def Caches (files : FileSet) (disk : Disk) (committed : Option Bytes) : Prop :=
  match committed with
  | some bytes => disk.read (files.data 0) = .ok bytes
  | none => disk.contains (files.data 0) = false

instance (files : FileSet) (disk : Disk) (committed : Option Bytes) :
    Decidable (files.Caches disk committed) :=
  match committed with
  | some bytes => inferInstanceAs (Decidable (disk.read (files.data 0) = .ok bytes))
  | none => inferInstanceAs (Decidable (disk.contains (files.data 0) = false))

theorem held_of_caches (h : files.Caches disk committed)
    (hreaches : disk.Reaches (files.slotPath ⟨.data, 0, false⟩)) :
    files.held disk ⟨.data, 0, false⟩ = committed.map .file := by
  cases committed with
  | some bytes =>
    rw [Caches, data_eq, read_slot_eq_ok_iff] at h
    exact h.2
  | none =>
    rw [Caches, data_eq, Bool.eq_false_iff, ne_eq, Disk.contains_eq_true_iff, place_slotPath] at h
    cases hheld : files.held disk ⟨.data, 0, false⟩ with
    | none => rfl
    | some entry => exact absurd ⟨hreaches, by rw [held] at hheld; rw [hheld]; rfl⟩ h

theorem RollsBack.abandons {rotated : Disk} (h : files.RollsBack committed rotated other)
    (hprepared : files.Prepared disk bytes rotated) (hcaches : files.Caches disk committed)
    (hreaches : disk.Reaches (files.slotPath ⟨.data, 0, false⟩)) : files.Abandons disk other := by
  have hcurrent : files.held other ⟨.data, 0, false⟩ = files.held disk ⟨.data, 0, false⟩ := by
    rcases h.data with hkept | hback
    · rw [hkept]
      exact held_of_agrees hprepared.agrees (by simp [Older])
    · rw [hback, held_of_caches hcaches hreaches]
  refine ⟨?_, ?_⟩
  · intro place hplace
    by_cases hdata : place = files.slotPlace ⟨.data, 0, false⟩
    · rw [hdata]
      exact hcurrent
    · exact (h.same place hdata (ne_draft_of_outside hplace)).trans (hprepared.agrees place hplace)
  · intro slot hdraft hcontains
    by_cases hnew : ∃ part, slot = ⟨part, 0, true⟩
    · obtain ⟨part, rfl⟩ := hnew
      exact absurd hcontains (h.removed part)
    · have hne : ∀ part, slot ≠ ⟨part, 0, true⟩ := fun part heq => hnew ⟨part, heq⟩
      have hdata : slot ≠ ⟨.data, 0, false⟩ := by
        rintro rfl
        cases hdraft
      have hsame : files.held other slot = files.held rotated slot :=
        h.same _ (by simpa using hdata) fun part => by simpa using hne part
      rcases hprepared.drafts slot hdraft hne with heq | hnone
      · exact hsame.trans heq
      · exact absurd hcontains (not_contains_of_held (hsame.trans hnone))

/-- A commit that fails leaves the current generation as it was, and no draft of its own. -/
theorem abandons_of_commit_error (hcaches : files.Caches s.state committed)
    (h : commit files keep committed bytes s = .error fault t) : files.Abandons s.state t.state := by
  rcases commit_error h with ⟨-, hsame | hremoved⟩ | ⟨hstageable, hback⟩
  · rw [hsame]
    exact ⟨.refl _ _, fun _ _ _ => rfl⟩
  · rw [hremoved]
    exact abandons_unset .data
  · have hshifts := rotate_shifts files keep committed ⟨files.staged s.state bytes, s.events⟩
    exact hback.abandons (prepared_of_shifts hshifts) hcaches
      (Reaches.part (hstageable .data).1 fun _ => rfl)

end TypedStore.FileSet
