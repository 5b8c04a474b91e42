/-
  TypedStore/Proofs/Archive/Commit.lean
  =====================================
  **What a commit leaves on disk.**

  A commit that succeeds has written the new data and its checksum to their temporary files, moved
  older generations up, and renamed the two files into place, in this order (`commit_eq_ok_iff`).
  Moving older generations touches no file of generation zero, whatever else is on disk
  (`rotate_agrees`). So the current pair is the one that was to be written (`commit_current`).
-/
import TypedStore.Proofs.Archive.Slots
import TypedStore.Proofs.Operations

namespace TypedStore.FileSet

variable {files : FileSet} {disk : Disk} {s t : Journaled Disk} {path source target : Path}
  {bytes : Bytes} {u : Unit}

/-! ### Slots on a disk -/

/-- What is at the place of a slot. -/
def held (files : FileSet) (disk : Disk) (slot : Slot) : Option Entry :=
  disk.lookup? (files.slotPlace slot)

@[simp]
theorem held_set (slot other : Slot) (entry : Entry) :
    files.held (disk.set (files.slotPlace slot) entry) other =
      if other = slot then some entry else files.held disk other := by
  simp only [held, Disk.lookup?_set _ _ _ _ (files.slotPlace_ne_root other), slotPlace_inj]

@[simp]
theorem held_unset (slot other : Slot) :
    files.held (disk.unset (files.slotPlace slot)) other =
      if other = slot then none else files.held disk other := by
  simp only [held, Disk.lookup?_unset _ _ _ (files.slotPlace_ne_root other), slotPlace_inj]

/-- The places of the slots that some commit may touch. -/
def slots (files : FileSet) (p : Slot → Prop) (place : Place) : Prop :=
  ∃ slot, p slot ∧ place = files.slotPlace slot

theorem slots_place (files : FileSet) {p : Slot → Prop} {slot : Slot} (h : p slot) :
    files.slots p (files.slotPath slot).place :=
  ⟨slot, h, files.place_slotPath slot⟩

theorem held_of_agrees {p : Slot → Prop} {other : Disk}
    (h : disk.AgreesOutside (files.slots p) other) {slot : Slot} (hslot : ¬ p slot) :
    files.held other slot = files.held disk slot := by
  refine h _ ?_
  rintro root ⟨slot', hslot', rfl⟩ hprefix
  obtain rfl := (files.slotPlace_prefix_iff).1 hprefix
  exact hslot hslot'

theorem write_slot_eq_ok_iff {slot : Slot} {other : Disk} :
    disk.write (files.slotPath slot) bytes = .ok other ↔
      disk.Reaches (files.slotPath slot) ∧ files.held disk slot ≠ some .directory ∧
        other = disk.set (files.slotPlace slot) (.file bytes) := by
  rw [Disk.write_eq_ok_iff, place_slotPath]
  rfl

theorem read_slot_eq_ok_iff {slot : Slot} :
    disk.read (files.slotPath slot) = .ok bytes ↔
      disk.Reaches (files.slotPath slot) ∧ files.held disk slot = some (.file bytes) := by
  rw [Disk.read_eq_ok_iff, place_slotPath]
  rfl

theorem rename_slot_eq_ok_iff {slot slot' : Slot} {other : Disk}
    (hfile : files.held disk slot = some (.file bytes)) :
    disk.rename (files.slotPath slot) (files.slotPath slot') = .ok other ↔
      disk.Reaches (files.slotPath slot) ∧ disk.Reaches (files.slotPath slot') ∧
        files.held disk slot' ≠ some .directory ∧
          other = (disk.unset (files.slotPlace slot)).set (files.slotPlace slot') (.file bytes) := by
  have hlookup : disk.lookup? (files.slotPath slot).place = some (.file bytes) := by
    rw [place_slotPath]
    exact hfile
  rw [Disk.rename_file_eq_ok_iff hlookup, place_slotPath, place_slotPath]
  rfl

/-! ### Single files -/

theorem writeFile_eq_ok_iff :
    writeFile path bytes s = .ok u t ↔
      ∃ other, s.state.write path bytes = .ok other ∧ t = ⟨other, s.events⟩ := by
  simp only [writeFile, Op.change_eq_ok_iff, Except.mapError_eq_ok_iff]

theorem moveFile_eq_ok_iff :
    moveFile source target s = .ok u t ↔
      ∃ other, s.state.rename source target = .ok other ∧ t = ⟨other, s.events⟩ := by
  simp only [moveFile, Op.change_eq_ok_iff, Except.mapError_eq_ok_iff]

theorem writeTemporary_eq_ok_iff :
    writeTemporary path bytes s = .ok u t ↔
      ∃ other, s.state.write (temporary path) bytes = .ok other ∧ t = ⟨other, s.events⟩ := by
  rw [← writeFile_eq_ok_iff (u := u), writeTemporary, Op.attempt_bind_eq_ok_iff]
  constructor
  · rintro (⟨_, r, hwrite, hpure⟩ | ⟨_, _, _, hthrow⟩)
    · cases hpure
      exact hwrite
    · exact absurd hthrow Op.bind_throw_ne_ok
  · intro hwrite
    exact .inl ⟨(), t, hwrite, rfl⟩

theorem settle_eq_ok_iff :
    settle path s = .ok u t ↔
      ∃ other, s.state.rename (temporary path) path = .ok other ∧ t = ⟨other, s.events⟩ := by
  rw [← moveFile_eq_ok_iff (u := u), settle, Op.attempt_bind_eq_ok_iff]
  constructor
  · rintro (⟨_, r, hmove, hpure⟩ | ⟨_, _, _, hthrow⟩)
    · cases hpure
      exact hmove
    · exact absurd hthrow Op.bind_throw_ne_ok
  · intro hmove
    exact .inl ⟨(), t, hmove, rfl⟩

theorem writeAtomic_eq_ok_iff :
    writeAtomic path bytes s = .ok u t ↔
      ∃ draft other, s.state.write (temporary path) bytes = .ok draft ∧
        draft.rename (temporary path) path = .ok other ∧ t = ⟨other, s.events⟩ := by
  simp only [writeAtomic, Op.bind_eq_ok_iff, writeTemporary_eq_ok_iff, settle_eq_ok_iff]
  constructor
  · rintro ⟨_, _, ⟨draft, hwrite, rfl⟩, other, hmove, rfl⟩
    exact ⟨draft, other, hwrite, hmove, rfl⟩
  · rintro ⟨draft, other, hwrite, hmove, rfl⟩
    exact ⟨(), _, ⟨draft, hwrite, rfl⟩, other, hmove, rfl⟩

/-! ### The stages of a commit -/

theorem stage_eq_ok_iff :
    stage files bytes s = .ok u t ↔
      ∃ first second,
        s.state.write (files.slotPath ⟨.data, 0, true⟩) bytes = .ok first ∧
        first.write (files.slotPath ⟨.checksum, 0, true⟩) (Checksum.fileFor bytes) = .ok second ∧
        t = ⟨second, s.events⟩ := by
  simp only [← temporary_slotPath, ← data_eq, ← checksum_eq]
  rw [stage, Op.bind_eq_ok_iff]
  constructor
  · rintro ⟨_, r, hdata, hrest⟩
    obtain ⟨first, hfirst, rfl⟩ := writeTemporary_eq_ok_iff.1 hdata
    rcases Op.attempt_bind_eq_ok_iff.1 hrest with ⟨_, _, hchecksum, hpure⟩ | ⟨_, _, _, hthrow⟩
    · cases hpure
      obtain ⟨second, hsecond, rfl⟩ := writeTemporary_eq_ok_iff.1 hchecksum
      exact ⟨first, second, hfirst, hsecond, rfl⟩
    · exact absurd hthrow Op.bind_throw_ne_ok
  · rintro ⟨first, second, hfirst, hsecond, rfl⟩
    refine ⟨(), _, writeTemporary_eq_ok_iff.2 ⟨first, hfirst, rfl⟩, ?_⟩
    refine Op.attempt_bind_eq_ok_iff.2 (.inl ⟨(), _, ?_, rfl⟩)
    exact writeTemporary_eq_ok_iff.2 ⟨second, hsecond, rfl⟩

theorem install_eq_ok_iff {keep : Nat} {committed : Option Bytes} :
    install files keep committed s = .ok u t ↔
      ∃ r other, rotate files keep committed s = .ok () r ∧
        r.state.rename (files.slotPath ⟨.data, 0, true⟩) (files.slotPath ⟨.data, 0, false⟩) =
          .ok other ∧ t = ⟨other, r.events⟩ := by
  simp only [← temporary_slotPath, ← data_eq]
  rw [install, Op.attempt_bind_eq_ok_iff]
  constructor
  · rintro (⟨_, _, hmoved, hpure⟩ | ⟨_, _, _, hthrow⟩)
    · cases hpure
      obtain ⟨_, r, hrotate, hfile⟩ := Op.bind_eq_ok_iff.1 hmoved
      obtain ⟨other, hmove, rfl⟩ := moveFile_eq_ok_iff.1 hfile
      exact ⟨r, other, hrotate, hmove, rfl⟩
    · obtain ⟨_, _, _, hrest⟩ := Op.bind_eq_ok_iff.1 hthrow
      exact absurd hrest Op.bind_throw_ne_ok
  · rintro ⟨r, other, hrotate, hmove, rfl⟩
    refine .inl ⟨(), _, ?_, rfl⟩
    exact Op.bind_eq_ok_iff.2 ⟨(), r, hrotate, moveFile_eq_ok_iff.2 ⟨other, hmove, rfl⟩⟩

theorem finish_eq_ok_iff {committed : Option Bytes} :
    finish files committed s = .ok u t ↔
      ∃ other,
        s.state.rename (files.slotPath ⟨.checksum, 0, true⟩)
          (files.slotPath ⟨.checksum, 0, false⟩) = .ok other ∧ t = ⟨other, s.events⟩ := by
  simp only [← temporary_slotPath, ← checksum_eq]
  rw [finish, Op.attempt_bind_eq_ok_iff]
  constructor
  · rintro (⟨_, _, hmove, hpure⟩ | ⟨_, _, _, hthrow⟩)
    · cases hpure
      exact moveFile_eq_ok_iff.1 hmove
    · obtain ⟨_, _, _, hrest⟩ := Op.bind_eq_ok_iff.1 hthrow
      exact absurd hrest Op.bind_throw_ne_ok
  · intro hmove
    exact .inl ⟨(), t, moveFile_eq_ok_iff.2 hmove, rfl⟩

/-- A commit succeeds exactly if each of its steps does. -/
theorem commit_eq_ok_iff {keep : Nat} {committed : Option Bytes} :
    commit files keep committed bytes s = .ok u t ↔
      ∃ first second r installed finished,
        s.state.write (files.slotPath ⟨.data, 0, true⟩) bytes = .ok first ∧
        first.write (files.slotPath ⟨.checksum, 0, true⟩) (Checksum.fileFor bytes) = .ok second ∧
        rotate files keep committed ⟨second, s.events⟩ = .ok () r ∧
        r.state.rename (files.slotPath ⟨.data, 0, true⟩) (files.slotPath ⟨.data, 0, false⟩) =
          .ok installed ∧
        installed.rename (files.slotPath ⟨.checksum, 0, true⟩)
          (files.slotPath ⟨.checksum, 0, false⟩) = .ok finished ∧
        t = ⟨finished, r.events ++ [.wroteData (files.data 0) bytes.length]⟩ := by
  simp only [commit, Op.bind_eq_ok_iff, stage_eq_ok_iff, install_eq_ok_iff, finish_eq_ok_iff]
  constructor
  · rintro ⟨_, _, ⟨first, second, hfirst, hsecond, rfl⟩, _, _,
      ⟨r, installed, hrotate, hinstall, rfl⟩, _, _, ⟨finished, hfinish, rfl⟩, hreport⟩
    cases hreport
    exact ⟨first, second, r, installed, finished, hfirst, hsecond, hrotate, hinstall, hfinish, rfl⟩
  · rintro ⟨first, second, r, installed, finished, hfirst, hsecond, hrotate, hinstall, hfinish,
      rfl⟩
    exact ⟨(), _, ⟨first, second, hfirst, hsecond, rfl⟩, (), _,
      ⟨r, installed, hrotate, hinstall, rfl⟩, (), _, ⟨finished, hfinish, rfl⟩, rfl⟩

/-! ### What the older generations are made of -/

theorem moveIfPresent_eq_ok_iff :
    moveIfPresent source target s = .ok u t ↔
      (s.state.contains source ∧
        ∃ other, s.state.rename source target = .ok other ∧ t = ⟨other, s.events⟩) ∨
      (¬ s.state.contains source ∧ t = s) := by
  rw [moveIfPresent, Op.bind_of_ok (Op.state_apply s)]
  by_cases hsource : s.state.contains source
  · rw [if_pos hsource, moveFile_eq_ok_iff]
    simp [hsource]
  · rw [if_neg hsource, Op.pure_apply]
    simp [hsource, eq_comm]

/-- The slots of older generations. -/
def Older (slot : Slot) : Prop := 1 ≤ slot.generation

theorem moveIfPresent_agrees {p : Slot → Prop} {slot slot' : Slot}
    (h : moveIfPresent (files.slotPath slot) (files.slotPath slot') s = .ok u t)
    (hslot : p slot) (hslot' : p slot') :
    s.state.AgreesOutside (files.slots p) t.state := by
  rcases moveIfPresent_eq_ok_iff.1 h with ⟨-, other, hmove, rfl⟩ | ⟨-, rfl⟩
  · exact Disk.rename_agrees hmove (slots_place files hslot) (slots_place files hslot')
  · exact Disk.AgreesOutside.refl _ _

theorem moveUpFrom_agrees {generation : Nat} (h : moveUpFrom files generation s = .ok u t) :
    s.state.AgreesOutside (files.slots Older) t.state := by
  induction generation generalizing s with
  | zero =>
    cases h
    exact Disk.AgreesOutside.refl _ _
  | succ generation ih =>
    simp only [moveUpFrom, Op.bind_eq_ok_iff, data_eq, checksum_eq] at h
    obtain ⟨_, _, hdata, _, _, hchecksum, hrest⟩ := h
    have holder : ∀ part n, Older ⟨part, n + 1, false⟩ := fun _ n => Nat.le_add_left 1 n
    have hfirst := moveIfPresent_agrees hdata (holder _ _) (holder _ _)
    have hsecond := moveIfPresent_agrees hchecksum (holder _ _) (holder _ _)
    exact (hfirst.trans hsecond).trans (ih hrest)

theorem writeAtomic_agrees {p : Slot → Prop} {part : Part} {generation : Nat}
    (h : writeAtomic (files.slotPath ⟨part, generation, false⟩) bytes s = .ok u t)
    (hdraft : p ⟨part, generation, true⟩) (hslot : p ⟨part, generation, false⟩) :
    s.state.AgreesOutside (files.slots p) t.state := by
  obtain ⟨draft, other, hwrite, hmove, rfl⟩ := writeAtomic_eq_ok_iff.1 h
  rw [temporary_slotPath] at hwrite hmove
  have hroot := slots_place files hdraft
  have hroot' := slots_place files hslot
  exact (Disk.write_agrees hwrite hroot).trans (Disk.rename_agrees hmove hroot hroot')

theorem rotate_eq_ok_iff {keep : Nat} {previous : Bytes} (hkeep : 2 ≤ keep) :
    rotate files keep (some previous) s = .ok u t ↔
      ∃ moved data, moveUpFrom files (keep - 2) s = .ok () moved ∧
        writeAtomic (files.slotPath ⟨.data, 1, false⟩) previous moved = .ok () data ∧
        writeAtomic (files.slotPath ⟨.checksum, 1, false⟩) (Checksum.fileFor previous) data =
          .ok () t := by
  simp only [rotate, hkeep, ↓reduceIte, Op.bind_eq_ok_iff, ← data_eq, ← checksum_eq]
  constructor
  · rintro ⟨_, moved, hmoved, _, data, hdata, hchecksum⟩
    exact ⟨moved, data, hmoved, hdata, hchecksum⟩
  · rintro ⟨moved, data, hmoved, hdata, hchecksum⟩
    exact ⟨(), moved, hmoved, (), data, hdata, hchecksum⟩

/-- Without previous data, or room for an older generation, nothing is moved. -/
theorem rotate_eq_pure {keep : Nat} {committed : Option Bytes} (h : committed = none ∨ keep < 2) :
    rotate files keep committed s = .ok () s := by
  cases committed with
  | none => rfl
  | some previous =>
    have hkeep : ¬ 2 ≤ keep := by
      rcases h with h | h
      · cases h
      · omega
    rw [rotate, if_neg hkeep]
    rfl

/-- Moving older generations up leaves everything else as it is. -/
theorem rotate_agrees {keep : Nat} {committed : Option Bytes}
    (h : rotate files keep committed s = .ok u t) :
    s.state.AgreesOutside (files.slots Older) t.state := by
  by_cases hnothing : committed = none ∨ keep < 2
  · rw [rotate_eq_pure hnothing] at h
    cases h
    exact Disk.AgreesOutside.refl _ _
  · obtain ⟨previous, rfl⟩ := Option.ne_none_iff_exists'.1 fun h => hnothing (.inl h)
    have hkeep : 2 ≤ keep := Nat.not_lt.1 fun h => hnothing (.inr h)
    obtain ⟨moved, data, hmoved, hdata, hchecksum⟩ := (rotate_eq_ok_iff hkeep).1 h
    have hone : ∀ part draft, Older ⟨part, 1, draft⟩ := fun _ _ => Nat.le_refl 1
    exact ((moveUpFrom_agrees hmoved).trans (writeAtomic_agrees hdata (hone _ _) (hone _ _))).trans
      (writeAtomic_agrees hchecksum (hone _ _) (hone _ _))

/-! ### The new generation -/

/-- The current pair after a commit is the data that was to be committed and its checksum. -/
theorem commit_current {keep : Nat} {committed : Option Bytes}
    (h : commit files keep committed bytes s = .ok u t) :
    t.state.read (files.data 0) = .ok bytes ∧
      t.state.read (files.checksum 0) = .ok (Checksum.fileFor bytes) := by
  obtain ⟨first, second, r, installed, finished, hfirst, hsecond, hrotate, hinstall, hfinish, rfl⟩ :=
    commit_eq_ok_iff.1 h
  obtain ⟨-, -, rfl⟩ := write_slot_eq_ok_iff.1 hfirst
  obtain ⟨-, -, rfl⟩ := write_slot_eq_ok_iff.1 hsecond
  -- The temporary files are those of generation zero, which the rotation does not touch.
  have hagrees := rotate_agrees hrotate
  have hzero : ∀ part draft, ¬ Older ⟨part, 0, draft⟩ := fun _ _ => Nat.not_succ_le_zero 0
  have hdata : files.held r.state ⟨.data, 0, true⟩ = some (.file bytes) := by
    rw [held_of_agrees hagrees (hzero _ _)]
    simp
  have hchecksum : files.held r.state ⟨.checksum, 0, true⟩ =
      some (.file (Checksum.fileFor bytes)) := by
    rw [held_of_agrees hagrees (hzero _ _)]
    simp
  have hdirs := Disk.rename_file_hasDirectories
    (by rw [place_slotPath]; exact hdata) hinstall
  obtain ⟨-, hreachesData, -, rfl⟩ := (rename_slot_eq_ok_iff hdata).1 hinstall
  have hchecksum' : files.held ((r.state.unset (files.slotPlace ⟨.data, 0, true⟩)).set
      (files.slotPlace ⟨.data, 0, false⟩) (.file bytes)) ⟨.checksum, 0, true⟩ =
      some (.file (Checksum.fileFor bytes)) := by
    simpa using hchecksum
  have hdirs' := Disk.rename_file_hasDirectories
    (by rw [place_slotPath]; exact hchecksum') hfinish
  obtain ⟨-, hreachesChecksum, -, rfl⟩ := (rename_slot_eq_ok_iff hchecksum').1 hfinish
  rw [data_eq, checksum_eq, read_slot_eq_ok_iff, read_slot_eq_ok_iff]
  refine ⟨⟨(hreachesData.mono hdirs).mono hdirs', ?_⟩, hreachesChecksum.mono hdirs', ?_⟩
  · simp
  · simp

/-! ### Why a commit fails -/

/-- A failure of a file operation. -/
def IsDiskFault (fault : StorageFault) : Prop := ∃ reason, fault = .disk reason

instance : DecidablePred IsDiskFault
  | .disk reason => isTrue ⟨reason, rfl⟩
  | .dataMissing _ | .keyNotText _ | .valueNotText _ | .notJson | .checksumMissing _
  | .checksumLength .. | .checksumMismatch .. | .listedKeyNotText _ | .noGenerations
  | .unavailable _ => isFalse nofun

theorem change_failsOnly {f : Disk → Except DiskFault Disk} :
    Op.FailsOnly IsDiskFault (Op.change fun disk => (f disk).mapError StorageFault.disk) := by
  intro s e t h
  unfold Op.change at h
  cases hf : f s.state with
  | ok next => simp [hf] at h
  | error reason =>
    simp only [hf, Except.mapError_error] at h
    cases h
    exact ⟨reason, rfl⟩

/-- Removing a temporary file never ends in a failure. -/
theorem discard_failsOnly {p : StorageFault → Prop} (path : Path) :
    Op.FailsOnly p (discard path) := by
  have hremove : Op.FailsOnly (fun _ => True)
      (Op.change fun disk => disk.remove path : Op DiskFault Disk Unit) := fun _ _ _ _ => trivial
  refine hremove.attempt_bind (fun _ => Op.failsOnly_pure ()) ?_
  intro fault _
  cases fault <;> first | exact Op.failsOnly_pure () | exact Op.failsOnly_report _

theorem putBack_failsOnly {p : StorageFault → Prop} (files : FileSet) (committed : Option Bytes) :
    Op.FailsOnly p (putBack files committed) := by
  have hsilent : Op.FailsOnly p (pure () : Op StorageFault Disk Unit) := Op.failsOnly_pure ()
  have hreported : ∀ fault : StorageFault, Op.FailsOnly p
      (Op.report (.notPutBack (files.data 0) fault.message) : Op StorageFault Disk Unit) :=
    fun _ => Op.failsOnly_report _
  cases committed with
  | none =>
    exact Op.FailsOnly.attempt_bind (change_failsOnly (f := fun disk => disk.remove (files.data 0)))
      (fun _ => hsilent) fun fault _ => hreported fault
  | some previous =>
    have hany : Op.FailsOnly (fun _ => True) (writeAtomic (files.data 0) previous) :=
      fun _ _ _ _ => trivial
    exact hany.attempt_bind (fun _ => hsilent) fun fault _ => hreported fault

theorem writeTemporary_failsOnly (path : Path) (bytes : Bytes) :
    Op.FailsOnly IsDiskFault (writeTemporary path bytes) :=
  Op.FailsOnly.attempt_bind change_failsOnly (fun _ => Op.failsOnly_pure ())
    fun _ hfault => (discard_failsOnly _).bind fun _ => Op.failsOnly_throw hfault

theorem writeAtomic_failsOnly (path : Path) (bytes : Bytes) :
    Op.FailsOnly IsDiskFault (writeAtomic path bytes) := by
  apply (writeTemporary_failsOnly path bytes).bind
  intro _
  exact Op.FailsOnly.attempt_bind change_failsOnly (fun _ => Op.failsOnly_pure ())
    fun _ hfault => (discard_failsOnly _).bind fun _ => Op.failsOnly_throw hfault

theorem moveIfPresent_failsOnly (source target : Path) :
    Op.FailsOnly IsDiskFault (moveIfPresent source target) := by
  intro s e t h
  rw [moveIfPresent, Op.bind_of_ok (Op.state_apply s)] at h
  split at h
  · exact change_failsOnly s e t h
  · cases h

theorem moveUpFrom_failsOnly (files : FileSet) (generation : Nat) :
    Op.FailsOnly IsDiskFault (moveUpFrom files generation) := by
  induction generation with
  | zero => exact Op.failsOnly_pure ()
  | succ generation ih =>
    exact (moveIfPresent_failsOnly _ _).bind fun _ => (moveIfPresent_failsOnly _ _).bind fun _ => ih

theorem rotate_failsOnly (files : FileSet) (keep : Nat) (committed : Option Bytes) :
    Op.FailsOnly IsDiskFault (rotate files keep committed) := by
  cases committed with
  | none => exact Op.failsOnly_pure ()
  | some previous =>
    by_cases hkeep : 2 ≤ keep
    · simp only [rotate, hkeep, ↓reduceIte]
      exact (moveUpFrom_failsOnly files _).bind fun _ =>
        (writeAtomic_failsOnly _ _).bind fun _ => writeAtomic_failsOnly _ _
    · simp only [rotate, hkeep, ↓reduceIte]
      exact Op.failsOnly_pure ()

/-- If a commit fails, a file operation has failed. -/
theorem commit_failsOnly (files : FileSet) (keep : Nat) (committed : Option Bytes) (bytes : Bytes) :
    Op.FailsOnly IsDiskFault (commit files keep committed bytes) := by
  have hstage : Op.FailsOnly IsDiskFault (stage files bytes) := by
    apply (writeTemporary_failsOnly _ _).bind
    intro _
    exact (writeTemporary_failsOnly _ _).attempt_bind (fun _ => Op.failsOnly_pure ())
      fun _ hfault => (discard_failsOnly _).bind fun _ => Op.failsOnly_throw hfault
  have hinstall : Op.FailsOnly IsDiskFault (install files keep committed) := by
    refine Op.FailsOnly.attempt_bind ((rotate_failsOnly files keep committed).bind
      fun _ => change_failsOnly) (fun _ => Op.failsOnly_pure ()) fun _ hfault => ?_
    exact (discard_failsOnly _).bind fun _ => (discard_failsOnly _).bind fun _ =>
      Op.failsOnly_throw hfault
  have hfinish : Op.FailsOnly IsDiskFault (finish files committed) := by
    refine Op.FailsOnly.attempt_bind change_failsOnly (fun _ => Op.failsOnly_pure ())
      fun _ hfault => ?_
    exact (discard_failsOnly _).bind fun _ => (putBack_failsOnly files committed).bind fun _ =>
      Op.failsOnly_throw hfault
  exact hstage.bind fun _ => hinstall.bind fun _ => hfinish.bind fun _ => Op.failsOnly_report _

end TypedStore.FileSet
