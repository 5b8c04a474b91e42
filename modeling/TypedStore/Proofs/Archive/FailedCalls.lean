/-
  TypedStore/Proofs/Archive/FailedCalls.lean
  ==========================================
  **What a call that fails leaves of an archive and its files.**

  A call fails because its arguments are not fit, and then nothing has happened, or because a commit
  has failed (`Call.perform_error`). What it has changed in memory it takes back
  (`Call.archive_of_error`), and the current files are as they were, whatever stands in the directory
  (`failed_call_keeps_current`). Older generations are as far as moving them up has come: they are not
  moved back (`failed_call_generations`).
-/
import TypedStore.Proofs.Archive.Calls
import TypedStore.Proofs.Archive.Rollback

namespace TypedStore.Archive

variable {c : Call} {s t : Journaled Mounted} {entries : Json.RawObject} {fault : StorageFault}

/-! ### How a call fails -/

/-- Whatever a call has changed in memory, it takes that back when it fails. -/
theorem Call.archive_of_error (h : c.perform s = .error fault t) :
    t.state.archive = s.state.archive := by
  cases c with
  | persist key value => exact persist_error h
  | remove key =>
    rcases Op.bind_eq_error_iff.1 h with hremove | ⟨_, _, -, hpure⟩
    · exact remove_error hremove
    · cases hpure
  | clear =>
    rcases Op.bind_eq_error_iff.1 h with hclear | ⟨_, _, -, hpure⟩
    · exact clear_error hclear
    · cases hpure
  | restore generation => exact restore_error h

/-- A call fails without effect since its arguments are not fit, or with a commit. -/
theorem Call.perform_error (h : c.perform s = .error fault t) :
    (¬ c.Fit s.state ∧ t = s) ∨
      ∃ entries r, c.Makes s.state entries ∧
        s.state.archive.files.commit s.state.archive.keep s.state.archive.committed
          entries.toBytes ⟨s.state.disk, s.events⟩ = .error fault r ∧
        t = ⟨⟨r.state, s.state.archive⟩, r.events⟩ := by
  by_cases hfit : c.Fit s.state
  · refine .inr ?_
    rcases hfit with hidles | ⟨entries, hmakes⟩
    · rw [perform_of_idles hidles] at h
      cases h
    · obtain ⟨f, heq, hf⟩ := perform_eq_of_makes hmakes
      rw [heq] at h
      rcases Op.bind_eq_error_iff.1 h with hreplace | ⟨_, r, -, hrest⟩
      · obtain ⟨r, hcommit, ht⟩ := replace_eq_error_iff.1 hreplace
        exact ⟨entries, r, hmakes, hcommit, ht⟩
      · obtain ⟨t', hok, -⟩ := hf r
        rw [hok] at hrest
        cases hrest
  · obtain ⟨fault', hrefused⟩ := perform_of_not_fit hfit
    rw [hrefused] at h
    cases h
    exact .inl ⟨hfit, rfl⟩

section Failed

variable {files : FileSet} {keep : Nat} {current : Json.RawObject} {committed : Option Bytes}
  {disk : Disk} {events : List Event}

/-! ### The current generation -/

/-- A call that fails, whatever stands in the directory and whatever file operation has failed for it,
    leaves the archive as it was, and the data file and whatever is at the place of the checksum file.
    Nothing else has changed but older generations and drafts, and a draft that is there afterwards is
    one that has been lying about before, as it was. -/
theorem failed_call_keeps_current (hcaches : files.Caches disk committed)
    (h : c.perform ⟨⟨disk, ⟨files, keep, current, committed⟩⟩, events⟩ = .error fault t) :
    t.state.archive = ⟨files, keep, current, committed⟩ ∧
    (∀ part place, files.slotPlace ⟨part, 0, false⟩ <+: place →
      t.state.disk.lookup? place = disk.lookup? place) ∧
    disk.AgreesOutside (files.slots fun slot => FileSet.Older slot ∨ slot.draft) t.state.disk ∧
    ∀ slot : FileSet.Slot, slot.draft → t.state.disk.contains (files.slotPath slot) →
      files.held t.state.disk slot = files.held disk slot := by
  -- In memory each call takes its own change back; on the disk that is up to the commit alone.
  have habandons : files.Abandons disk t.state.disk := by
    rcases Call.perform_error h with ⟨-, rfl⟩ | ⟨entries, r, -, hcommit, rfl⟩
    · exact ⟨.refl _ _, fun _ _ _ => rfl⟩
    · exact FileSet.abandons_of_commit_error (s := ⟨disk, events⟩) hcaches hcommit
  obtain ⟨hagrees, hdrafts⟩ := habandons
  refine ⟨Call.archive_of_error h, ?_, hagrees, hdrafts⟩
  intro part place hbelow
  apply hagrees
  rintro root ⟨slot, hslot, rfl⟩ hprefix
  -- Two slots are equally deep, so those above one place are the same.
  have hplace : files.slotPlace slot = files.slotPlace ⟨part, 0, false⟩ := by
    refine (List.prefix_of_prefix_length_le hprefix hbelow ?_).eq_of_length ?_
    · simp [FileSet.slotPlace]
    · simp [FileSet.slotPlace]
  rw [FileSet.slotPlace_inj] at hplace
  subst hplace
  simp [FileSet.Older] at hslot

/-- The checksum file has been replaced by a directory after a first value: the second cannot be
    persisted. -/
theorem failed_call_keeps_current_checksum :
    let files : FileSet := ⟨["d"], 0⟩
    let opened := (load files {}).after ⟨.empty, []⟩
    let first : Call := .persist (Utf8.encode "k") (Utf8.encode "1")
    let second : Call := .persist (Utf8.encode "k") (Utf8.encode "2")
    let s₁ := first.perform.after ⟨⟨opened.state, ⟨files, 3, .empty, none⟩⟩, opened.events⟩
    let disk := s₁.state.disk.set (files.slotPlace ⟨.checksum, 0, false⟩) .directory
    let s : Journaled Mounted := ⟨⟨disk, ⟨files, 3, s₁.state.archive.entries,
      s₁.state.archive.committed⟩⟩, []⟩
    let t := second.perform.after s
    (files.Caches disk s₁.state.archive.committed ∧
      second.perform s = .error (.disk .isDirectory) t) ∧
    t.state.archive = s.state.archive ∧
    files.held t.state.disk ⟨.data, 0, false⟩ = files.held disk ⟨.data, 0, false⟩ ∧
    files.held t.state.disk ⟨.checksum, 0, false⟩ = some .directory ∧
    ∀ slot : FileSet.Slot, slot.draft → t.state.disk.contains (files.slotPath slot) →
      files.held t.state.disk slot = files.held disk slot := by
  intro files opened first second s₁ disk s t
  have hcaches : files.Caches disk s₁.state.archive.committed := by
    decide +kernel
  have herror : second.perform s = .error (.disk .isDirectory) t :=
    Op.eq_error_of_outcome (by decide +kernel)
  obtain ⟨harchive, hplaces, -, hdrafts⟩ := failed_call_keeps_current hcaches herror
  refine ⟨⟨hcaches, herror⟩, harchive, hplaces .data _ List.prefix_rfl, ?_, hdrafts⟩
  refine (hplaces .checksum _ List.prefix_rfl).trans ?_
  exact Disk.lookup?_set_self (files.slotPlace_ne_root _)

/-! ### Older generations -/

/-- What a call that fails leaves of older generations. They are as they were if nothing was to be
    moved: the arguments are not fit, the drafts cannot be written, nothing has been committed before,
    or older generations are not kept. Else they are as far as they have been moved up, and are not
    moved back; if they have all been moved generation one is what was committed last, just as the
    current one. -/
theorem failed_call_generations
    (h : c.perform ⟨⟨disk, ⟨files, keep, current, committed⟩⟩, events⟩ = .error fault t) :
    (¬ c.Fit ⟨disk, ⟨files, keep, current, committed⟩⟩ ∨ ¬ files.Stageable disk ∨
        committed = none ∨ keep < 2 →
      ∀ slot, FileSet.Older slot → files.held t.state.disk slot = files.held disk slot) ∧
    (c.Fit ⟨disk, ⟨files, keep, current, committed⟩⟩ → files.Stageable disk → ∃ entries,
      c.Makes ⟨disk, ⟨files, keep, current, committed⟩⟩ entries ∧
      (∀ slot, FileSet.Older slot → files.held t.state.disk slot = files.held ((files.rotate keep
        committed).after ⟨files.staged disk entries.toBytes, events⟩).state slot) ∧
      ∀ previous r, committed = some previous → 2 ≤ keep →
        files.rotate keep committed ⟨files.staged disk entries.toBytes, events⟩ = .ok () r →
          files.held t.state.disk ⟨.data, 1, false⟩ = some (.file previous) ∧
          files.held t.state.disk ⟨.checksum, 1, false⟩ =
            some (.file (Checksum.fileFor previous))) := by
  rcases Call.perform_error h with ⟨hunfit, rfl⟩ | ⟨entries, r, hmakes, hcommit, rfl⟩
  · exact ⟨fun _ _ _ => rfl, fun hfit => absurd hfit hunfit⟩
  have hcases : ∀ slot, FileSet.Older slot →
      (¬ files.Stageable disk ∧ files.held r.state slot = files.held disk slot) ∨
      (files.Stageable disk ∧ files.held r.state slot = files.held ((files.rotate keep
        committed).after ⟨files.staged disk entries.toBytes, events⟩).state slot) :=
    fun slot hslot => FileSet.held_older_of_commit_error hcommit hslot
  refine ⟨?_, ?_⟩
  · intro hnothing slot hslot
    rcases hcases slot hslot with ⟨-, hsame⟩ | ⟨hstageable, hrotated⟩
    · exact hsame
    · have hrotate : committed = none ∨ keep < 2 := by
        rcases hnothing with hunfit | hnot | hrotate
        · exact absurd (.inr ⟨entries, hmakes⟩) hunfit
        · exact absurd hstageable hnot
        · exact hrotate
      refine hrotated.trans ?_
      rw [Op.after_of_ok (FileSet.rotate_eq_pure hrotate)]
      exact FileSet.held_staged_older hslot
  · intro _ hstageable
    have hrotated : ∀ slot, FileSet.Older slot → files.held r.state slot = files.held
        ((files.rotate keep committed).after ⟨files.staged disk entries.toBytes, events⟩).state
          slot := by
      intro slot hslot
      rcases hcases slot hslot with ⟨hnot, -⟩ | ⟨-, hrotated⟩
      · exact absurd hstageable hnot
      · exact hrotated
    refine ⟨entries, hmakes, hrotated, ?_⟩
    rintro previous r' rfl hkeep hrotate
    have hone : ∀ part, FileSet.Older ⟨part, 1, false⟩ := fun _ => Nat.le_refl 1
    rw [hrotated _ (hone _), hrotated _ (hone _), Op.after_of_ok hrotate]
    exact FileSet.held_rotate_one hkeep hrotate

/-- Two values have been persisted and the checksum file has been replaced by a directory. Clearing
    fails, and the second value, which is the current one still, has become generation one. -/
theorem failed_call_generations_twice :
    let files : FileSet := ⟨["d"], 0⟩
    let opened := (load files {}).after ⟨.empty, []⟩
    let first : Call := .persist (Utf8.encode "k") (Utf8.encode "1")
    let second : Call := .persist (Utf8.encode "k") (Utf8.encode "2")
    let s₂ := second.perform.after (first.perform.after
      ⟨⟨opened.state, ⟨files, 3, .empty, none⟩⟩, opened.events⟩)
    let disk := s₂.state.disk.set (files.slotPlace ⟨.checksum, 0, false⟩) .directory
    let s : Journaled Mounted := ⟨⟨disk, ⟨files, 3, s₂.state.archive.entries,
      s₂.state.archive.committed⟩⟩, []⟩
    let t := Call.clear.perform.after s
    Call.clear.perform s = .error (.disk .isDirectory) t ∧
    (∃ entries, Call.clear.Makes s.state entries ∧
      ∀ slot, FileSet.Older slot → files.held t.state.disk slot = files.held
        ((files.rotate 3 s₂.state.archive.committed).after
          ⟨files.staged disk entries.toBytes, []⟩).state slot) ∧
    files.held t.state.disk ⟨.data, 1, false⟩ = files.held disk ⟨.data, 0, false⟩ := by
  intro files opened first second s₂ disk s t
  have herror : Call.clear.perform s = .error (.disk .isDirectory) t :=
    Op.eq_error_of_outcome (by decide +kernel)
  have hfit : Call.clear.Fit s.state := .inr ⟨.empty, by decide +kernel, rfl⟩
  have hlocate : ∀ part, disk.locate (files.slotPath ⟨part, 0, true⟩) =
      .ok (files.slotPlace ⟨part, 0, true⟩) := by
    intro part
    cases part <;> decide +kernel
  have hstageable : files.Stageable disk := by
    intro part
    refine ⟨(Disk.locate_eq_ok_iff.1 (hlocate part)).1, ?_⟩
    cases part <;> decide +kernel
  obtain ⟨-, hmoved⟩ := failed_call_generations herror
  obtain ⟨entries, hmakes, hrotated, -⟩ := hmoved hfit hstageable
  exact ⟨herror, ⟨entries, hmakes, hrotated⟩, by decide +kernel⟩

/-- Three values have been persisted, and a directory stands where the draft of generation one belongs.
    A fourth value cannot be persisted. There is no generation one any more, what it was has taken the
    place of generation two, and what that was is lost. -/
theorem failed_call_loses_generation :
    let files : FileSet := ⟨["d"], 0⟩
    let opened := (load files {}).after ⟨.empty, []⟩
    let persist (value : String) : Call := .persist (Utf8.encode "k") (Utf8.encode value)
    let s₀ : Journaled Mounted := ⟨⟨opened.state, ⟨files, 3, .empty, none⟩⟩, opened.events⟩
    let s₁ := (persist "1").perform.after s₀
    let s₂ := (persist "2").perform.after s₁
    let s₃ := (persist "3").perform.after s₂
    let disk := s₃.state.disk.set (files.slotPlace ⟨.data, 1, true⟩) .directory
    let s : Journaled Mounted := ⟨⟨disk, s₃.state.archive⟩, s₃.events⟩
    let t := (persist "4").perform.after s
    ((persist "1").perform.outcome s₀ = .ok () ∧ (persist "2").perform.outcome s₁ = .ok () ∧
      (persist "3").perform.outcome s₂ = .ok ()) ∧
    s₃.state.disk.makeDirectory (files.slotPath ⟨.data, 1, true⟩) = .ok disk ∧
    (persist "4").perform.outcome s = .error (.disk .isDirectory) ∧
    (files.held disk ⟨.data, 1, false⟩).isSome ∧
    files.held t.state.disk ⟨.data, 1, false⟩ = none ∧
    files.held t.state.disk ⟨.data, 2, false⟩ = files.held disk ⟨.data, 1, false⟩ ∧
    files.held t.state.disk ⟨.data, 2, false⟩ ≠ files.held disk ⟨.data, 2, false⟩ := by
  decide +kernel

end Failed

end TypedStore.Archive
