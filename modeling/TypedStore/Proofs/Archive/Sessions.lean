/-
  TypedStore/Proofs/Archive/Sessions.lean
  =======================================
  **Runs over several openings of the same files.**

  The files of a store are opened, with other options every time, written by way of the archives that
  are open on them, and closed again. `OpenArchives.Run` are the runs of such steps in which the file
  operations of calls succeed; a run has a history of openings and commits, its `Deed`s. What may be
  in the data files after it depends on what has been committed alone (`Run.contained`).
-/
import Mathlib.Logic.Function.Basic
import TypedStore.Proofs.Archive.Agreement
import TypedStore.Proofs.Archive.Contained

namespace TypedStore.Archive

/-! ### What a call makes -/

/-- A call that does not idle and succeeds has committed what it makes, which are the entries
    afterwards. -/
theorem Call.commit_of_perform {c : Call} {s t : Journaled Mounted} {u : Unit}
    (hidles : ¬ c.Idles s.state) (hcall : c.perform s = .ok u t) :
    ∃ entries r, c.Makes s.state entries ∧
      s.state.archive.files.commit s.state.archive.keep s.state.archive.committed
        entries.toBytes ⟨s.state.disk, s.events⟩ = .ok () r ∧
      t.state = ⟨r.state, { s.state.archive with
        entries := entries, committed := some entries.toBytes }⟩ := by
  rcases Call.perform_cases hcall with ⟨hidles', -⟩ | ⟨entries, r, hmakes, hreplace, hstate⟩
  · exact absurd hidles' hidles
  · obtain ⟨r', hcommit, rfl⟩ := replace_eq_ok_iff.1 hreplace
    exact ⟨entries, r', hmakes, hcommit, hstate⟩

/-! ### Openings, calls and closings -/

/-- The disk, and the archives that are open on it, each under a handle. -/
structure OpenArchives (ι : Type) where
  disk : Disk
  archives : ι → Option Archive

/-- What is remembered of a step: how files have been opened, or how many generations the archive
    keeps that has committed, and the entries. -/
inductive Deed where
  | opened (options : ArchiveOptions)
  | committed (keep : Nat) (entries : Json.RawObject)
deriving DecidableEq

namespace OpenArchives

variable {ι : Type}

/-- All data files hold bytes of one kind, and so does what open archives take to be in them. -/
structure Contained (files : FileSet) (p : Bytes → Prop) (o : OpenArchives ι) : Prop where
  isDirectory : o.disk.isDirectory files.dir
  disk : files.HoldsOnly p o.disk
  archives : ∀ i archive, o.archives i = some archive → archive.Admits files p

theorem Contained.mono {files : FileSet} {p q : Bytes → Prop} {o : OpenArchives ι}
    (h : Contained files p o) (hpq : ∀ bytes, p bytes → q bytes) :
    Contained files q o := by
  refine ⟨h.isDirectory, h.disk.mono hpq, ?_⟩
  intro i archive hopen
  obtain ⟨hfiles, hcommitted⟩ := h.archives i archive hopen
  exact ⟨hfiles, fun previous hprevious => hpq _ (hcommitted previous hprevious)⟩

variable [DecidableEq ι]

/-- An archive under a handle, with the disk that it has been working on. -/
def put (o : OpenArchives ι) (i : ι) (s : Mounted) : OpenArchives ι :=
  ⟨s.disk, Function.update o.archives i (some s.archive)⟩

/-- Nothing under a handle any more. -/
def close (o : OpenArchives ι) (i : ι) : OpenArchives ι :=
  ⟨o.disk, Function.update o.archives i none⟩

/-- A step on the files of a store, and what is remembered of it. Opening may be refused for any
    reason; a call under a handle fails only if its arguments are not fit. -/
inductive Step (files : FileSet) (o : OpenArchives ι) : List Deed → OpenArchives ι → Prop where
  | opened {i : ι} {options : ArchiveOptions} {events : List Event} {archive : Archive}
      {t : Journaled Disk} :
    o.archives i = none → load files options ⟨o.disk, events⟩ = .ok archive t →
      Step files o [.opened options] (o.put i ⟨t.state, archive⟩)
  | refused {options : ArchiveOptions} {events : List Event} {fault : StorageFault}
      {t : Journaled Disk} :
    load files options ⟨o.disk, events⟩ = .error fault t → Step files o [] ⟨t.state, o.archives⟩
  | closed {i : ι} : Step files o [] (o.close i)
  | idled {i : ι} {archive : Archive} {c : Call} {events : List Event} {t : Journaled Mounted} :
    o.archives i = some archive → c.Idles ⟨o.disk, archive⟩ →
      c.perform ⟨⟨o.disk, archive⟩, events⟩ = .ok () t → Step files o [] (o.put i t.state)
  | rejected {i : ι} {archive : Archive} {c : Call} {events : List Event} {fault : StorageFault}
      {t : Journaled Mounted} :
    o.archives i = some archive → ¬ c.Fit ⟨o.disk, archive⟩ →
      c.perform ⟨⟨o.disk, archive⟩, events⟩ = .error fault t → Step files o [] (o.put i t.state)
  | committed {i : ι} {archive : Archive} {c : Call} {events : List Event} {t : Journaled Mounted} :
    o.archives i = some archive → ¬ c.Idles ⟨o.disk, archive⟩ →
      c.perform ⟨⟨o.disk, archive⟩, events⟩ = .ok () t →
        Step files o [.committed archive.keep t.state.archive.entries] (o.put i t.state)

/-- Steps have led from one state to another, and these are their deeds, the latest first. -/
inductive Run (files : FileSet) (start : OpenArchives ι) : List Deed → OpenArchives ι → Prop where
  | start : Run files start [] start
  | step {deeds fresh : List Deed} {o next : OpenArchives ι} :
    Run files start deeds o → o.Step files fresh next → Run files start (fresh ++ deeds) next

variable {files : FileSet} {start o next : OpenArchives ι} {deeds fresh : List Deed}
  {p q : Bytes → Prop}

@[simp]
theorem put_archives_self (o : OpenArchives ι) (i : ι) (s : Mounted) :
    (o.put i s).archives i = some s.archive := Function.update_self _ _ _

theorem put_archives_of_ne {i j : ι} (h : j ≠ i) (s : Mounted) :
    (o.put i s).archives j = o.archives j := Function.update_of_ne h _ _

theorem close_archives_self (o : OpenArchives ι) (i : ι) : (o.close i).archives i = none :=
  Function.update_self _ _ _

theorem close_archives_of_ne {i j : ι} (h : j ≠ i) : (o.close i).archives j = o.archives j :=
  Function.update_of_ne h _ _

theorem of_close_archives {i j : ι} {archive : Archive}
    (h : (o.close i).archives j = some archive) : o.archives j = some archive := by
  by_cases heq : j = i
  · rw [heq, close_archives_self] at h
    cases h
  · rw [close_archives_of_ne heq] at h
    exact h

/-- Nothing changes under a handle when an archive is put back that has not changed. -/
theorem put_same {i : ι} {archive : Archive} (h : o.archives i = some archive) :
    o.put i ⟨o.disk, archive⟩ = o := by
  rw [put, ← h, Function.update_eq_self]

/-- The steps, by what they do: files are opened; or closed, or nothing is done to them; or an archive
    that is open commits. -/
theorem Step.cases_on_disk (h : o.Step files fresh next) (hdir : o.disk.isDirectory files.dir) :
    (∃ i options events archive t, fresh = [.opened options] ∧ o.archives i = none ∧
      load files options ⟨o.disk, events⟩ = .ok archive t ∧ t.state = o.disk ∧
        next = o.put i ⟨o.disk, archive⟩) ∨
    (fresh = [] ∧ next.disk = o.disk ∧
      ∀ i archive, next.archives i = some archive → o.archives i = some archive) ∨
    ∃ i archive c events entries r, fresh = [.committed archive.keep entries] ∧
      o.archives i = some archive ∧ Call.Makes ⟨o.disk, archive⟩ entries c ∧
      archive.files.commit archive.keep archive.committed entries.toBytes ⟨o.disk, events⟩ =
        .ok () r ∧
      next = o.put i ⟨r.state, { archive with
        entries := entries, committed := some entries.toBytes }⟩ := by
  cases h with
  | @opened i options events archive t hnone hload =>
    have hsettled := load_settled files options ⟨o.disk, events⟩ hdir
    rw [Op.after_of_ok hload] at hsettled
    change t.state = o.disk at hsettled
    exact .inl ⟨i, options, events, archive, t, rfl, hnone, hload, hsettled, by rw [hsettled]⟩
  | @refused options events fault t hload =>
    have hsettled := load_settled files options ⟨o.disk, events⟩ hdir
    rw [Op.after_of_error hload] at hsettled
    exact .inr (.inl ⟨rfl, hsettled, fun _ _ h => h⟩)
  | closed => exact .inr (.inl ⟨rfl, rfl, fun _ _ h => of_close_archives h⟩)
  | idled hopen hidles hcall =>
    rw [Call.perform_of_idles hidles] at hcall
    cases hcall
    rw [put_same hopen]
    exact .inr (.inl ⟨rfl, rfl, fun _ _ h => h⟩)
  | @rejected i archive c events fault t hopen hfit hcall =>
    obtain ⟨fault', hrefused⟩ :=
      Call.perform_of_not_fit (s := ⟨⟨o.disk, archive⟩, events⟩) hfit
    rw [hrefused] at hcall
    cases hcall
    rw [put_same hopen]
    exact .inr (.inl ⟨rfl, rfl, fun _ _ h => h⟩)
  | @committed i archive c events t hopen hidles hcall =>
    obtain ⟨entries, r, hmakes, hcommit, hstate⟩ := Call.commit_of_perform hidles hcall
    rw [hstate]
    exact .inr (.inr ⟨i, archive, c, events, entries, r, rfl, hopen, hmakes, hcommit, rfl⟩)

/-! ### Longer runs -/

theorem Run.opened {i : ι} {options : ArchiveOptions} {s : Mounted} (h : Run files start deeds o)
    (hdisk : o.disk = s.disk) (hdir : s.disk.isDirectory files.dir) (hnone : o.archives i = none)
    (hload : (load files options).outcome ⟨s.disk, []⟩ = .ok s.archive) :
    Run files start (.opened options :: deeds) (o.put i s) := by
  have hsettled := load_settled files options ⟨s.disk, []⟩ hdir
  have hopened := Op.eq_ok_of_outcome hload
  rw [← hdisk] at hopened
  have hstep := Step.opened hnone hopened
  rw [hdisk, hsettled] at hstep
  exact .step h hstep

/-- The archive that has just been put under a handle commits. -/
theorem Run.committed {i : ι} {s t : Mounted} {keep : Nat} (c : Call)
    (h : Run files start deeds (o.put i s)) (hidles : ¬ c.Idles s)
    (hcall : c.perform.outcome ⟨s, []⟩ = .ok ()) (ht : (c.perform.after ⟨s, []⟩).state = t)
    (hkeep : s.archive.keep = keep) :
    Run files start (.committed keep t.archive.entries :: deeds) ((o.put i s).put i t) := by
  subst ht hkeep
  exact .step h (.committed (put_archives_self o i s) hidles (Op.eq_ok_of_outcome hcall))

/-! ### What the files hold -/

theorem Contained.put {i : ι} {s : Mounted} (h : Contained files p o)
    (hdir : s.disk.isDirectory files.dir) (hdisk : files.HoldsOnly p s.disk)
    (harchive : s.archive.Admits files p) : Contained files p (o.put i s) := by
  refine ⟨hdir, hdisk, ?_⟩
  intro j archive hj
  by_cases heq : j = i
  · rw [heq, put_archives_self] at hj
    cases hj
    exact harchive
  · rw [put_archives_of_ne heq] at hj
    exact h.archives j archive hj

/-- A step puts nothing in data files but what is committed in it. -/
theorem Step.contained (h : o.Step files fresh next) (ho : Contained files p o)
    (hfresh : ∀ keep entries, .committed keep entries ∈ fresh → p entries.toBytes) :
    Contained files p next := by
  rcases h.cases_on_disk ho.isDirectory with ⟨i, options, events, archive, t, -, -, hload, ht, rfl⟩ |
    ⟨-, hdisk, harchives⟩ | ⟨i, archive, c, events, entries, r, rfl, hopen, -, hcommit, rfl⟩
  · apply ho.put ho.isDirectory ho.disk
    apply admits_of_load hload
    rw [ht]
    exact ho.disk
  · refine ⟨?_, ?_, fun i archive hopen => ho.archives i archive (harchives i archive hopen)⟩
    · rw [hdisk]
      exact ho.isDirectory
    · rw [hdisk]
      exact ho.disk
  · obtain ⟨hfiles, hcommitted⟩ := ho.archives i archive hopen
    have hbytes : p entries.toBytes := hfresh _ _ List.mem_cons_self
    have hleaves : (files.commit archive.keep archive.committed entries.toBytes).Leaves
        (files.Preserves p) := FileSet.commit_preserves hbytes hcommitted
    have hpreserves := hleaves ⟨o.disk, events⟩
    rw [hfiles] at hcommit
    rw [Op.after_of_ok hcommit] at hpreserves
    obtain ⟨hdisk, hdirs⟩ := hpreserves ho.disk
    apply ho.put (Disk.isDirectory_mono hdirs ho.isDirectory) hdisk
    refine ⟨hfiles, ?_⟩
    rintro previous hprevious
    cases hprevious
    exact hbytes

/-- A run puts nothing in data files but what is committed in it. -/
theorem Run.contained (h : Run files start deeds o) (hstart : Contained files p start) :
    Contained files (fun bytes => p bytes ∨
      ∃ keep entries, Deed.committed keep entries ∈ deeds ∧ bytes = entries.toBytes) o := by
  induction h with
  | start => exact hstart.mono fun _ hbytes => .inl hbytes
  | step _ hstep ih =>
    apply hstep.contained (ih.mono ?_)
    · intro keep entries hmem
      exact .inr ⟨keep, entries, List.mem_append_left _ hmem, rfl⟩
    · rintro bytes (hbytes | ⟨keep, entries, hmem, rfl⟩)
      · exact .inl hbytes
      · exact .inr ⟨keep, entries, List.mem_append_right _ hmem, rfl⟩

end OpenArchives

end TypedStore.Archive
