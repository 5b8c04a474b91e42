/-
  TypedStore/Proofs/Archive/Failures.lean
  =======================================
  **What file operations leave when they fail.**

  A single file operation that fails leaves the disk as it was, and a file that is written by way of
  its draft leaves no draft (`writeTemporary_error`, `settle_error`). Moving older generations up may
  fail half-way. What holds of it then is what holds of it in any case (`rotate_shifts`): it changes
  older generations only, and of the drafts that had been lying about some may be gone.
-/
import TypedStore.Proofs.Archive.Commit

namespace TypedStore.FileSet

variable {files : FileSet} {disk other : Disk} {s t : Journaled Disk} {path source target : Path}
  {slot : Slot} {bytes : Bytes} {u : Unit} {fault : StorageFault} {keep : Nat}
  {committed : Option Bytes}

/-- Generation zero is no older one. -/
theorem Older.ne_current (h : Older slot) (part : Part) (draft : Bool) : slot ≠ ⟨part, 0, draft⟩ := by
  rintro rfl
  exact absurd h (Nat.not_succ_le_zero 0)

theorem held_without_ne {slot other : Slot} (h : other ≠ slot) :
    files.held (disk.without (files.slotPath slot)) other = files.held disk other := by
  apply Disk.lookup?_without_ne
  rw [place_slotPath]
  exact fun heq => h (files.slotPlace_inj.1 heq)

theorem without_slotPath (hreaches : disk.Reaches (files.slotPath slot))
    (hfile : files.held disk slot = some (.file bytes)) :
    disk.without (files.slotPath slot) = disk.unset (files.slotPlace slot) := by
  rw [Disk.without_of_file hreaches (by rw [place_slotPath]; exact hfile), place_slotPath]

theorem discard_eq (path : Path) (s : Journaled Disk) :
    ∃ events, discard path s = .ok () ⟨s.state.without path, events⟩ := by
  unfold Disk.without
  cases hremove : s.state.remove path with
  | ok other =>
    have hchange : (Op.change fun disk => disk.remove path : Op DiskFault Disk Unit) s =
        .ok () ⟨other, s.events⟩ := Op.change_eq_ok_iff.2 ⟨other, hremove, rfl⟩
    refine ⟨s.events, ?_⟩
    rw [discard, Op.bind_of_ok (Op.attempt_of_ok hchange)]
    rfl
  | error reason =>
    have hchange : (Op.change fun disk => disk.remove path : Op DiskFault Disk Unit) s =
        .error reason s := Op.change_eq_error_iff.2 ⟨hremove, rfl⟩
    rw [discard, Op.bind_of_ok (Op.attempt_of_error hchange)]
    cases reason <;> exact ⟨_, rfl⟩

theorem discard_throw {α : Type} {fault e : StorageFault}
    (h : (discard path >>= fun _ => (throw fault : Op StorageFault Disk α)) s = .error e t) :
    t.state = s.state.without path := by
  obtain ⟨events, hdiscard⟩ := discard_eq path s
  rw [Op.bind_of_ok hdiscard] at h
  cases h
  rfl

theorem writeFile_error (h : writeFile path bytes s = .error fault t) :
    (∃ reason, s.state.write path bytes = .error reason) ∧ t = s := by
  obtain ⟨hwrite, hsame⟩ := Op.change_eq_error_iff.1 h
  refine ⟨?_, hsame⟩
  cases hresult : s.state.write path bytes with
  | ok other => simp [hresult] at hwrite
  | error reason => exact ⟨reason, rfl⟩

theorem moveFile_error (h : moveFile source target s = .error fault t) : t = s :=
  (Op.change_eq_error_iff.1 h).2

/-- A draft that cannot be written leaves nothing behind. -/
theorem writeTemporary_error (h : writeTemporary path bytes s = .error fault t) :
    t.state = s.state := by
  rw [writeTemporary, Op.attempt_bind_eq_iff] at h
  rcases h with ⟨_, r, -, hpure⟩ | ⟨e, r, hwrite, hrest⟩
  · cases hpure
  · obtain ⟨⟨reason, hreason⟩, rfl⟩ := writeFile_error hwrite
    rw [discard_throw hrest, Disk.without_of_write_error hreason]

theorem settle_error (h : settle path s = .error fault t) :
    t.state = s.state.without (temporary path) := by
  rw [settle, Op.attempt_bind_eq_iff] at h
  rcases h with ⟨_, r, -, hpure⟩ | ⟨e, r, hmove, hrest⟩
  · cases hpure
  · obtain rfl := moveFile_error hmove
    exact discard_throw hrest

/-- Writing a file by way of its draft leaves the disk, or takes away the draft that has been
    lying about. -/
theorem writeAtomic_error (h : writeAtomic path bytes s = .error fault t) :
    t.state = s.state ∨ t.state = s.state.unset (temporary path).place := by
  rcases Op.bind_eq_error_iff.1 h with hwrite | ⟨_, r, hwrite, hsettle⟩
  · exact .inl (writeTemporary_error hwrite)
  · obtain ⟨draft, hdraft, rfl⟩ := writeTemporary_eq_ok_iff.1 hwrite
    refine .inr ?_
    rw [settle_error hsettle, Disk.without_of_write hdraft]

theorem held_writeAtomic {part : Part} {generation : Nat}
    (h : writeAtomic (files.slotPath ⟨part, generation, false⟩) bytes s = .ok u t) (slot : Slot) :
    files.held t.state slot =
      if slot = ⟨part, generation, false⟩ then some (.file bytes)
      else if slot = ⟨part, generation, true⟩ then none
      else files.held s.state slot := by
  obtain ⟨draft, other, hdraft, hmove, rfl⟩ := writeAtomic_eq_ok_iff.1 h
  rw [temporary_slotPath] at hdraft hmove
  obtain ⟨-, -, rfl⟩ := write_slot_eq_ok_iff.1 hdraft
  obtain ⟨-, -, -, rfl⟩ := (rename_slot_eq_ok_iff (by rw [held_set, if_pos rfl])).1 hmove
  rw [held_set, held_unset, held_set]
  split
  · rfl
  · split <;> rfl

/-! ### Moving older generations -/

/-- What moving older generations up may change, whether it fails or not: the older generations
    themselves; and of the drafts of all generations some may be gone. -/
structure Shifts (files : FileSet) (disk other : Disk) : Prop where
  agrees : disk.AgreesOutside (files.slots Older) other
  drafts : ∀ slot : Slot, slot.draft →
    files.held other slot = files.held disk slot ∨ files.held other slot = none

theorem Shifts.refl (files : FileSet) (disk : Disk) : files.Shifts disk disk :=
  ⟨.refl _ _, fun _ _ => .inl rfl⟩

theorem Shifts.trans {a b c : Disk} (hab : files.Shifts a b) (hbc : files.Shifts b c) :
    files.Shifts a c := by
  refine ⟨hab.agrees.trans hbc.agrees, ?_⟩
  intro slot hslot
  rcases hbc.drafts slot hslot with heq | hnone
  · rw [heq]
    exact hab.drafts slot hslot
  · exact .inr hnone

/-- A draft of an older generation may be taken away. -/
theorem shifts_unset (hslot : Older slot) :
    files.Shifts disk (disk.unset (files.slotPlace slot)) := by
  refine ⟨Disk.unset_agrees ⟨slot, hslot, rfl⟩, ?_⟩
  intro other _
  rw [held_unset]
  split
  · exact .inr rfl
  · exact .inl rfl

theorem moveIfPresent_shifts {slot target : Slot} (hslot : Older slot ∧ slot.draft = false)
    (htarget : Older target ∧ target.draft = false) :
    (moveIfPresent (files.slotPath slot) (files.slotPath target)).Leaves files.Shifts := by
  intro s
  have hagrees : s.state.AgreesOutside (files.slots fun slot => Older slot ∧ slot.draft = false)
      ((moveIfPresent (files.slotPath slot) (files.slotPath target)).after s).state := by
    cases hmove : moveIfPresent (files.slotPath slot) (files.slotPath target) s with
    | ok u t =>
      rw [Op.after_of_ok hmove]
      exact moveIfPresent_agrees hmove hslot htarget
    | error e t =>
      rw [Op.after_of_error hmove]
      rw [moveIfPresent, Op.bind_of_ok (Op.state_apply s)] at hmove
      split at hmove
      · rw [moveFile_error hmove]
        exact .refl _ _
      · cases hmove
  refine ⟨hagrees.mono fun place hplace => ?_, ?_⟩
  · obtain ⟨slot', hslot', rfl⟩ := hplace
    exact ⟨slot', hslot'.1, rfl⟩
  · intro slot' hdraft
    refine .inl (held_of_agrees hagrees ?_)
    rintro ⟨-, hnot⟩
    rw [hdraft] at hnot
    cases hnot

theorem moveUpFrom_shifts (files : FileSet) (generation : Nat) :
    (moveUpFrom files generation).Leaves files.Shifts := by
  induction generation with
  | zero => exact Op.leaves_pure (Shifts.refl files) ()
  | succ generation ih =>
    have holder : ∀ part n, Older ⟨part, n + 1, false⟩ := fun _ n => Nat.le_add_left 1 n
    have hmove : ∀ part, (moveIfPresent (files.slotPath ⟨part, generation + 1, false⟩)
        (files.slotPath ⟨part, generation + 2, false⟩)).Leaves files.Shifts :=
      fun part => moveIfPresent_shifts ⟨holder part _, rfl⟩ ⟨holder part _, rfl⟩
    apply (hmove .data).bind Shifts.trans
    intro _
    apply (hmove .checksum).bind Shifts.trans
    intro _
    exact ih

theorem writeAtomic_shifts (files : FileSet) (part : Part) {generation : Nat}
    (hgeneration : 1 ≤ generation) (bytes : Bytes) :
    (writeAtomic (files.slotPath ⟨part, generation, false⟩) bytes).Leaves files.Shifts := by
  intro s
  have holder : ∀ draft, Older ⟨part, generation, draft⟩ := fun _ => hgeneration
  cases hwrite : writeAtomic (files.slotPath ⟨part, generation, false⟩) bytes s with
  | ok u t =>
    rw [Op.after_of_ok hwrite]
    refine ⟨writeAtomic_agrees hwrite (holder _) (holder _), ?_⟩
    intro slot hslot
    have hother : slot ≠ ⟨part, generation, false⟩ := by
      rintro rfl
      cases hslot
    rw [held_writeAtomic hwrite, if_neg hother]
    split
    · exact .inr rfl
    · exact .inl rfl
  | error e t =>
    rw [Op.after_of_error hwrite]
    rcases writeAtomic_error hwrite with hsame | hremoved
    · rw [hsame]
      exact .refl _ _
    · rw [hremoved, temporary_slotPath, place_slotPath]
      exact shifts_unset (holder _)

theorem rotate_shifts (files : FileSet) (keep : Nat) (committed : Option Bytes) :
    (rotate files keep committed).Leaves files.Shifts := by
  by_cases hnothing : committed = none ∨ keep < 2
  · intro s
    rw [Op.after_of_ok (rotate_eq_pure hnothing)]
    exact .refl _ _
  · obtain ⟨previous, rfl⟩ := Option.ne_none_iff_exists'.1 fun h => hnothing (.inl h)
    have hkeep : 2 ≤ keep := Nat.not_lt.1 fun h => hnothing (.inr h)
    simp only [rotate, hkeep, ↓reduceIte, data_eq, checksum_eq]
    apply (moveUpFrom_shifts files _).bind Shifts.trans
    intro _
    apply (writeAtomic_shifts files .data (Nat.le_refl 1) previous).bind Shifts.trans
    intro _
    exact writeAtomic_shifts files .checksum (Nat.le_refl 1) _

end TypedStore.FileSet
