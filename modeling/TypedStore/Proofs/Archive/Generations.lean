/-
  TypedStore/Proofs/Archive/Generations.lean
  ==========================================
  **What a commit makes of the generations.**

  As long as no directory stands where a file of the store belongs, the files can be followed
  through a commit as a function from slots to what they hold (`Contents`): each step of a commit
  that succeeds changes this function as it changes the disk (`commit_holds`), and each step succeeds
  where the paths of the generations that are kept lead anywhere (`commit_succeeds`).
-/
import TypedStore.Proofs.Archive.Commit

namespace TypedStore.FileSet

/-- What slots hold. -/
abbrev Contents := Slot → Option Entry

namespace Contents

variable {view : Contents} {slot other source target : Slot}

/-- Another entry, or none, in a slot. -/
def put (view : Contents) (slot : Slot) (entry : Option Entry) : Contents := fun other =>
  if other = slot then entry else view other

@[simp]
theorem put_self (entry : Option Entry) : view.put slot entry slot = entry := if_pos rfl

theorem put_ne {entry : Option Entry} (h : other ≠ slot) :
    view.put slot entry other = view other := if_neg h

/-- What is in one slot, if anything, moved to another. -/
def move (view : Contents) (source target : Slot) : Contents := fun slot =>
  if slot = target then (view source).or (view target)
  else if slot = source then none
  else view slot

theorem move_of_none (h : view source = none) : view.move source target = view := by
  funext slot
  unfold move
  split
  · next heq => rw [h, heq, Option.none_or]
  · split
    · next heq => rw [heq, h]
    · rfl

theorem move_of_some {entry : Entry} (h : view source = some entry) :
    view.move source target = (view.put source none).put target (some entry) := by
  funext slot
  unfold move put
  rw [h, Option.some_or]

/-- The files of a generation moved to the next. -/
def moveNext (view : Contents) (generation : Nat) : Contents :=
  (view.move ⟨.data, generation, false⟩ ⟨.data, generation + 1, false⟩).move
    ⟨.checksum, generation, false⟩ ⟨.checksum, generation + 1, false⟩

/-- Generations moved up by one, the given one first. -/
def moveUp : Nat → Contents → Contents
  | 0, view => view
  | generation + 1, view => moveUp generation (view.moveNext (generation + 1))

/-- A file written by way of its draft. -/
def writeAtomic (view : Contents) (part : Part) (generation : Nat) (bytes : Bytes) : Contents :=
  (view.put ⟨part, generation, true⟩ none).put ⟨part, generation, false⟩ (some (.file bytes))

/-- The last committed data made generation one. -/
def rotate (view : Contents) (keep : Nat) (committed : Option Bytes) : Contents :=
  match committed with
  | none => view
  | some previous =>
    if 2 ≤ keep then
      ((moveUp (keep - 2) view).writeAtomic .data 1 previous).writeAtomic .checksum 1
        (Checksum.fileFor previous)
    else view

/-- A commit: the pair that is written, and the generations below it. -/
def commit (view : Contents) (keep : Nat) (committed : Option Bytes) (bytes : Bytes) : Contents :=
  ((view.rotate keep committed).writeAtomic .data 0 bytes).writeAtomic .checksum 0
    (Checksum.fileFor bytes)

theorem moveNext_apply (view : Contents) (generation : Nat) (part : Part) (n : Nat) (draft : Bool) :
    view.moveNext generation ⟨part, n, draft⟩ =
      if draft then view ⟨part, n, draft⟩
      else if n = generation + 1 then
        (view ⟨part, generation, false⟩).or (view ⟨part, generation + 1, false⟩)
      else if n = generation then none
      else view ⟨part, n, draft⟩ := by
  cases part <;> cases draft <;> simp [moveNext, move]

/-- Where a file is after the generations have been moved up. -/
theorem moveUp_apply (generation : Nat) (view : Contents) (part : Part) (n : Nat) (draft : Bool) :
    moveUp generation view ⟨part, n, draft⟩ =
      if draft ∨ n = 0 ∨ generation = 0 ∨ generation + 1 < n then view ⟨part, n, draft⟩
      else if n = generation + 1 then
        (view ⟨part, generation, false⟩).or (view ⟨part, generation + 1, false⟩)
      else if n = 1 then none
      else view ⟨part, n - 1, false⟩ := by
  induction generation generalizing view with
  | zero => simp [moveUp]
  | succ generation ih =>
    rw [moveUp, ih]
    simp only [moveNext_apply]
    cases draft with
    | true => simp
    | false => grind

end Contents

/-! ### Following the files through a commit -/

/-- The slots on a disk hold this: no directory stands in one, and those with a file are reached. -/
structure Holds (files : FileSet) (disk : Disk) (view : Contents) : Prop where
  held_eq : ∀ slot, files.held disk slot = view slot
  no_directory : ∀ slot, view slot ≠ some .directory
  reached : ∀ slot, view slot ≠ none → disk.Reaches (files.slotPath slot)

variable {files : FileSet} {disk other : Disk} {s t : Journaled Disk} {view : Contents}
  {slot source target : Slot} {bytes : Bytes} {u : Unit} {keep : Nat} {committed : Option Bytes}

theorem write_holds (h : files.Holds disk view)
    (hwrite : disk.write (files.slotPath slot) bytes = .ok other) :
    files.Holds other (view.put slot (some (.file bytes))) := by
  have hdirs := Disk.write_hasDirectories hwrite
  obtain ⟨hreaches, -, rfl⟩ := write_slot_eq_ok_iff.1 hwrite
  refine ⟨?_, ?_, ?_⟩
  · intro slot'
    rw [held_set, h.held_eq]
    rfl
  · intro slot'
    by_cases heq : slot' = slot
    · rw [heq, Contents.put_self]
      simp
    · rw [Contents.put_ne heq]
      exact h.no_directory slot'
  · intro slot' hslot'
    by_cases heq : slot' = slot
    · rw [heq]
      exact hreaches.mono hdirs
    · rw [Contents.put_ne heq] at hslot'
      exact (h.reached slot' hslot').mono hdirs

theorem rename_holds (h : files.Holds disk view) (hfile : view source = some (.file bytes))
    (hrename : disk.rename (files.slotPath source) (files.slotPath target) = .ok other) :
    files.Holds other ((view.put source none).put target (some (.file bytes))) ∧
      disk.HasDirectories other := by
  have hheld : files.held disk source = some (.file bytes) := (h.held_eq source).trans hfile
  have hdirs := Disk.rename_file_hasDirectories (by rw [place_slotPath]; exact hheld) hrename
  obtain ⟨-, hreaches, -, rfl⟩ := (rename_slot_eq_ok_iff hheld).1 hrename
  refine ⟨⟨?_, ?_, ?_⟩, hdirs⟩
  · intro slot
    rw [held_set, held_unset, h.held_eq]
    rfl
  · intro slot
    by_cases htarget : slot = target
    · rw [htarget, Contents.put_self]
      simp
    rw [Contents.put_ne htarget]
    by_cases hsource : slot = source
    · rw [hsource, Contents.put_self]
      simp
    · rw [Contents.put_ne hsource]
      exact h.no_directory slot
  · intro slot hslot
    by_cases htarget : slot = target
    · rw [htarget]
      exact hreaches.mono hdirs
    rw [Contents.put_ne htarget] at hslot
    by_cases hsource : slot = source
    · rw [hsource, Contents.put_self] at hslot
      exact absurd rfl hslot
    · rw [Contents.put_ne hsource] at hslot
      exact (h.reached slot hslot).mono hdirs

theorem contains_slot_iff (h : files.Holds disk view) :
    disk.contains (files.slotPath slot) ↔ view slot ≠ none := by
  rw [Disk.contains_eq_true_iff, place_slotPath, ← h.held_eq]
  change _ ∧ (files.held disk slot).isSome ↔ _
  rw [← Option.isSome_iff_ne_none]
  constructor
  · exact And.right
  · intro hsome
    refine ⟨h.reached slot ?_, hsome⟩
    rw [← h.held_eq]
    exact Option.isSome_iff_ne_none.1 hsome

/-- What is in a slot, if anything, is a file. -/
theorem Holds.file_of_some {entry : Entry} (h : files.Holds disk view)
    (hentry : view slot = some entry) : ∃ bytes, entry = .file bytes := by
  cases entry with
  | file bytes => exact ⟨bytes, rfl⟩
  | directory => exact absurd hentry (h.no_directory slot)

theorem moveIfPresent_holds (h : files.Holds s.state view)
    (hmove : moveIfPresent (files.slotPath source) (files.slotPath target) s = .ok u t) :
    files.Holds t.state (view.move source target) ∧ s.state.HasDirectories t.state := by
  cases hsource : view source with
  | none =>
    rw [Contents.move_of_none hsource]
    rcases moveIfPresent_eq_ok_iff.1 hmove with ⟨hcontains, -⟩ | ⟨-, rfl⟩
    · exact absurd hsource ((contains_slot_iff h).1 hcontains)
    · exact ⟨h, .refl _⟩
  | some entry =>
    obtain ⟨bytes, rfl⟩ := h.file_of_some hsource
    rw [Contents.move_of_some hsource]
    rcases moveIfPresent_eq_ok_iff.1 hmove with ⟨-, other, hrename, rfl⟩ | ⟨hnot, -⟩
    · exact rename_holds h hsource hrename
    · exact absurd ((contains_slot_iff h).2 (by rw [hsource]; simp)) hnot

theorem moveUpFrom_holds {generation : Nat} (h : files.Holds s.state view)
    (hmove : moveUpFrom files generation s = .ok u t) :
    files.Holds t.state (view.moveUp generation) ∧ s.state.HasDirectories t.state := by
  induction generation generalizing s view with
  | zero =>
    cases hmove
    exact ⟨h, .refl _⟩
  | succ generation ih =>
    simp only [moveUpFrom, Op.bind_eq_ok_iff, data_eq, checksum_eq] at hmove
    obtain ⟨_, _, hdata, _, _, hchecksum, hrest⟩ := hmove
    obtain ⟨hheldData, hdirsData⟩ := moveIfPresent_holds h hdata
    obtain ⟨hheldNext, hdirsNext⟩ := moveIfPresent_holds hheldData hchecksum
    obtain ⟨hheld, hdirs⟩ := ih hheldNext hrest
    exact ⟨hheld, (hdirsData.trans hdirsNext).trans hdirs⟩

/-- A draft that is renamed into place is as good as a file written there. -/
theorem Contents.settle_draft (view : Contents) (part : Part) (generation : Nat) (bytes : Bytes) :
    ((view.put ⟨part, generation, true⟩ (some (.file bytes))).put ⟨part, generation, true⟩
      none).put ⟨part, generation, false⟩ (some (.file bytes)) =
      view.writeAtomic part generation bytes := by
  funext slot
  simp only [writeAtomic, put]
  split
  · rfl
  · split <;> rfl

theorem writeAtomic_holds {part : Part} {generation : Nat} (h : files.Holds s.state view)
    (hwrite : writeAtomic (files.slotPath ⟨part, generation, false⟩) bytes s = .ok u t) :
    files.Holds t.state (view.writeAtomic part generation bytes) ∧
      s.state.HasDirectories t.state := by
  obtain ⟨draft, other, hdraft, hrename, rfl⟩ := writeAtomic_eq_ok_iff.1 hwrite
  rw [temporary_slotPath] at hdraft hrename
  obtain ⟨hheld, hdirs⟩ := rename_holds (write_holds h hdraft) (Contents.put_self _) hrename
  rw [Contents.settle_draft] at hheld
  exact ⟨hheld, (Disk.write_hasDirectories hdraft).trans hdirs⟩

theorem rotate_holds (h : files.Holds s.state view)
    (hrotate : rotate files keep committed s = .ok u t) :
    files.Holds t.state (view.rotate keep committed) ∧ s.state.HasDirectories t.state := by
  cases committed with
  | none =>
    cases hrotate
    exact ⟨h, .refl _⟩
  | some previous =>
    by_cases hkeep : 2 ≤ keep
    · obtain ⟨moved, data, hmoved, hdata, hchecksum⟩ := (rotate_eq_ok_iff hkeep).1 hrotate
      obtain ⟨hheldMoved, hdirsMoved⟩ := moveUpFrom_holds h hmoved
      obtain ⟨hheldData, hdirsData⟩ := writeAtomic_holds hheldMoved hdata
      obtain ⟨hheld, hdirs⟩ := writeAtomic_holds hheldData hchecksum
      rw [Contents.rotate, if_pos hkeep]
      exact ⟨hheld, (hdirsMoved.trans hdirsData).trans hdirs⟩
    · rw [rotate_eq_pure (.inr (Nat.not_le.1 hkeep))] at hrotate
      cases hrotate
      rw [Contents.rotate, if_neg hkeep]
      exact ⟨h, .refl _⟩

/-! ### The new generation -/

namespace Contents

/-- The drafts of a new generation. -/
def stage (view : Contents) (bytes : Bytes) : Contents :=
  (view.put ⟨.data, 0, true⟩ (some (.file bytes))).put ⟨.checksum, 0, true⟩
    (some (.file (Checksum.fileFor bytes)))

/-- The drafts of a new generation, of which the data has been renamed into place. -/
def install (view : Contents) (bytes : Bytes) : Contents :=
  ((view.stage bytes).put ⟨.data, 0, true⟩ none).put ⟨.data, 0, false⟩ (some (.file bytes))

theorem stage_data (view : Contents) (bytes : Bytes) :
    view.stage bytes ⟨.data, 0, true⟩ = some (.file bytes) := by
  simp [stage, put]

theorem install_checksum (view : Contents) (bytes : Bytes) :
    view.install bytes ⟨.checksum, 0, true⟩ = some (.file (Checksum.fileFor bytes)) := by
  simp [install, stage, put]

/-- Moving older generations up does not touch the drafts of the new one. -/
theorem rotate_stage (view : Contents) (keep : Nat) (committed : Option Bytes) (bytes : Bytes) :
    (view.stage bytes).rotate keep committed = (view.rotate keep committed).stage bytes := by
  have hmoveUp : ∀ generation, moveUp generation (view.stage bytes) =
      (moveUp generation view).stage bytes := by
    intro generation
    funext slot
    obtain ⟨part, n, draft⟩ := slot
    cases draft <;> simp [moveUp_apply, stage, put]
  cases committed with
  | none => rfl
  | some previous =>
    unfold rotate
    dsimp only
    split
    · rw [hmoveUp]
      funext slot
      obtain ⟨part, n, draft⟩ := slot
      by_cases hzero : n = 0 <;> cases part <;> simp [stage, writeAtomic, put, hzero]
    · rfl

theorem settle_install (view : Contents) (bytes : Bytes) :
    ((view.install bytes).put ⟨.checksum, 0, true⟩ none).put ⟨.checksum, 0, false⟩
        (some (.file (Checksum.fileFor bytes))) =
      (view.writeAtomic .data 0 bytes).writeAtomic .checksum 0 (Checksum.fileFor bytes) := by
  funext slot
  obtain ⟨part, n, draft⟩ := slot
  by_cases hzero : n = 0 <;> cases part <;> cases draft <;>
    simp [install, stage, writeAtomic, put, hzero]

end Contents

theorem commit_holds (h : files.Holds s.state view)
    (hcommit : FileSet.commit files keep committed bytes s = .ok u t) :
    files.Holds t.state (view.commit keep committed bytes) ∧ s.state.HasDirectories t.state := by
  obtain ⟨first, second, r, installed, finished, hfirst, hsecond, hrotate, hinstall, hfinish, rfl⟩ :=
    commit_eq_ok_iff.1 hcommit
  have hstaged : files.Holds second (view.stage bytes) := write_holds (write_holds h hfirst) hsecond
  have hdirsStaged := (Disk.write_hasDirectories hfirst).trans (Disk.write_hasDirectories hsecond)
  obtain ⟨hrotated, hdirsRotated⟩ := rotate_holds (s := ⟨second, s.events⟩) hstaged hrotate
  rw [Contents.rotate_stage] at hrotated
  obtain ⟨hinstalled, hdirsInstalled⟩ := rename_holds hrotated (Contents.stage_data _ _) hinstall
  obtain ⟨hfinished, hdirsFinished⟩ :=
    rename_holds hinstalled (Contents.install_checksum _ _) hfinish
  refine ⟨?_, ((hdirsStaged.trans hdirsRotated).trans hdirsInstalled).trans hdirsFinished⟩
  rw [Contents.commit, ← Contents.settle_install]
  exact hfinished

/-! ### Commits that succeed -/

/-- The paths of the generations that are kept lead somewhere, those of their drafts too. -/
def Roomy (files : FileSet) (keep : Nat) (disk : Disk) : Prop :=
  ∀ slot : Slot, slot.generation < keep → disk.Reaches (files.slotPath slot)

theorem Roomy.mono (h : files.Roomy keep disk) (hdirs : disk.HasDirectories other) :
    files.Roomy keep other :=
  fun slot hslot => (h slot hslot).mono hdirs

theorem write_succeeds (h : files.Holds disk view) (hreaches : disk.Reaches (files.slotPath slot))
    (bytes : Bytes) : ∃ other, disk.write (files.slotPath slot) bytes = .ok other := by
  refine ⟨_, write_slot_eq_ok_iff.2 ⟨hreaches, ?_, rfl⟩⟩
  rw [h.held_eq]
  exact h.no_directory slot

theorem rename_succeeds (h : files.Holds disk view) (hfile : view source = some (.file bytes))
    (hreaches : disk.Reaches (files.slotPath target)) :
    ∃ other, disk.rename (files.slotPath source) (files.slotPath target) = .ok other := by
  have hheld : files.held disk source = some (.file bytes) := (h.held_eq source).trans hfile
  have hsource : disk.Reaches (files.slotPath source) := h.reached source (by rw [hfile]; simp)
  refine ⟨_, (rename_slot_eq_ok_iff hheld).2 ⟨hsource, hreaches, ?_, rfl⟩⟩
  rw [h.held_eq]
  exact h.no_directory target

theorem moveIfPresent_succeeds (source : Slot) (h : files.Holds s.state view)
    (hreaches : s.state.Reaches (files.slotPath target)) :
    ∃ t, moveIfPresent (files.slotPath source) (files.slotPath target) s = .ok () t := by
  cases hsource : view source with
  | none =>
    refine ⟨s, moveIfPresent_eq_ok_iff.2 (.inr ⟨?_, rfl⟩)⟩
    intro hcontains
    exact (contains_slot_iff h).1 hcontains hsource
  | some entry =>
    obtain ⟨bytes, rfl⟩ := h.file_of_some hsource
    obtain ⟨other, hrename⟩ := rename_succeeds h hsource hreaches
    refine ⟨_, moveIfPresent_eq_ok_iff.2 (.inl ⟨?_, other, hrename, rfl⟩)⟩
    exact (contains_slot_iff h).2 (by rw [hsource]; simp)

theorem moveUpFrom_succeeds {generation : Nat} (h : files.Holds s.state view)
    (hroom : files.Roomy keep s.state) (hkeep : generation + 1 < keep) :
    ∃ t, moveUpFrom files generation s = .ok () t := by
  induction generation generalizing s view with
  | zero => exact ⟨s, rfl⟩
  | succ generation ih =>
    obtain ⟨a, hdata⟩ := moveIfPresent_succeeds ⟨.data, generation + 1, false⟩ h
      (hroom ⟨.data, generation + 2, false⟩ hkeep)
    obtain ⟨hheldData, hdirsData⟩ := moveIfPresent_holds h hdata
    obtain ⟨b, hchecksum⟩ := moveIfPresent_succeeds ⟨.checksum, generation + 1, false⟩ hheldData
      (hroom.mono hdirsData ⟨.checksum, generation + 2, false⟩ hkeep)
    obtain ⟨hheldNext, hdirsNext⟩ := moveIfPresent_holds hheldData hchecksum
    obtain ⟨t, hrest⟩ := ih hheldNext (hroom.mono (hdirsData.trans hdirsNext)) (by omega)
    refine ⟨t, ?_⟩
    simp only [moveUpFrom, Op.bind_eq_ok_iff, data_eq, checksum_eq]
    exact ⟨(), a, hdata, (), b, hchecksum, hrest⟩

theorem writeAtomic_succeeds (part : Part) {generation : Nat} (h : files.Holds s.state view)
    (hroom : files.Roomy keep s.state) (hkeep : generation < keep) (bytes : Bytes) :
    ∃ t, writeAtomic (files.slotPath ⟨part, generation, false⟩) bytes s = .ok () t := by
  obtain ⟨draft, hdraft⟩ := write_succeeds h (hroom ⟨part, generation, true⟩ hkeep) bytes
  have hroom' := hroom.mono (Disk.write_hasDirectories hdraft)
  obtain ⟨other, hrename⟩ := rename_succeeds (write_holds h hdraft) (Contents.put_self _)
    (hroom' ⟨part, generation, false⟩ hkeep)
  rw [← temporary_slotPath] at hdraft hrename
  exact ⟨_, writeAtomic_eq_ok_iff.2 ⟨draft, other, hdraft, hrename, rfl⟩⟩

theorem rotate_succeeds (h : files.Holds s.state view) (hroom : files.Roomy keep s.state)
    (committed : Option Bytes) : ∃ t, rotate files keep committed s = .ok () t := by
  cases committed with
  | none => exact ⟨s, rfl⟩
  | some previous =>
    by_cases hkeep : 2 ≤ keep
    · obtain ⟨moved, hmoved⟩ := moveUpFrom_succeeds h hroom (show keep - 2 + 1 < keep by omega)
      obtain ⟨hheldMoved, hdirsMoved⟩ := moveUpFrom_holds h hmoved
      have hroomMoved := hroom.mono hdirsMoved
      obtain ⟨data, hdata⟩ := writeAtomic_succeeds .data hheldMoved hroomMoved
        (show 1 < keep from hkeep) previous
      obtain ⟨hheldData, hdirsData⟩ := writeAtomic_holds hheldMoved hdata
      obtain ⟨t, hchecksum⟩ := writeAtomic_succeeds .checksum hheldData
        (hroomMoved.mono hdirsData) (show 1 < keep from hkeep) (Checksum.fileFor previous)
      exact ⟨t, (rotate_eq_ok_iff hkeep).2 ⟨moved, data, hmoved, hdata, hchecksum⟩⟩
    · exact ⟨s, rotate_eq_pure (.inr (Nat.not_le.1 hkeep))⟩

/-- A commit for which there is room succeeds. -/
theorem commit_succeeds (h : files.Holds s.state view) (hroom : files.Roomy keep s.state)
    (hkeep : keep ≠ 0) (committed : Option Bytes) (bytes : Bytes) :
    ∃ t, FileSet.commit files keep committed bytes s = .ok () t := by
  have hzero : ∀ part draft, (⟨part, 0, draft⟩ : Slot).generation < keep :=
    fun _ _ => Nat.pos_of_ne_zero hkeep
  obtain ⟨first, hfirst⟩ := write_succeeds h (hroom ⟨.data, 0, true⟩ (hzero _ _)) bytes
  have hroomFirst := hroom.mono (Disk.write_hasDirectories hfirst)
  obtain ⟨second, hsecond⟩ := write_succeeds (write_holds h hfirst)
    (hroomFirst ⟨.checksum, 0, true⟩ (hzero _ _)) (Checksum.fileFor bytes)
  have hroomSecond := hroomFirst.mono (Disk.write_hasDirectories hsecond)
  have hstaged : files.Holds second (view.stage bytes) := write_holds (write_holds h hfirst) hsecond
  obtain ⟨r, hrotate⟩ := rotate_succeeds (s := ⟨second, s.events⟩) hstaged hroomSecond committed
  obtain ⟨hrotated, hdirsRotated⟩ := rotate_holds (s := ⟨second, s.events⟩) hstaged hrotate
  rw [Contents.rotate_stage] at hrotated
  have hroomRotated := hroomSecond.mono hdirsRotated
  obtain ⟨installed, hinstall⟩ := rename_succeeds hrotated (Contents.stage_data _ _)
    (hroomRotated ⟨.data, 0, false⟩ (hzero _ _))
  obtain ⟨hinstalled, hdirsInstalled⟩ := rename_holds hrotated (Contents.stage_data _ _) hinstall
  obtain ⟨finished, hfinish⟩ := rename_succeeds hinstalled (Contents.install_checksum _ _)
    (hroomRotated.mono hdirsInstalled ⟨.checksum, 0, false⟩ (hzero _ _))
  exact ⟨_, commit_eq_ok_iff.2
    ⟨first, second, r, installed, finished, hfirst, hsecond, hrotate, hinstall, hfinish, rfl⟩⟩

end TypedStore.FileSet
