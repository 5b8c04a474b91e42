/-
  TypedStore/Proofs/Store/FirstOpening.lean
  =========================================
  **Opening a store where the directory is missing.**

  The first store to be opened in a directory makes it, if it is missing, unless the opening fails
  before (`openWith_founded`). For another store it makes no difference whether the directory has been
  made before it is opened, or is made then: its opening comes to the same (`openWith_ahead`). There is
  one exception, for the defaults are looked for before the directory is made. If the path leads through
  something that is missing to a directory that is there, defaults may be found only once the path has
  been made; so there must not be any.
-/
import TypedStore.Proofs.Store.Neighbours

namespace TypedStore

theorem FileSet.isDiskFault_of_readIfPresent {path : Path} {disk : Disk} {fault : StorageFault}
    (h : readIfPresent path disk = .error fault) : IsDiskFault fault := by
  unfold readIfPresent at h
  split at h
  · cases h
  · cases h
  · next reason _ _ =>
    cases h
    exact ⟨reason, rfl⟩

namespace Archive

variable {files : FileSet} {options : ArchiveOptions} {region : Place → Prop} {dir : Path}
  {start made : Disk}

/-! ### Making the directory -/

/-- The disk is as it was, or the directories of the path have been made. -/
def Founded (dir : Path) (start disk : Disk) : Prop :=
  disk = start ∨ start.makeDirectories dir = (.ok (), disk) ∧ disk.isDirectory dir

theorem load_founded_after {s : Journaled Disk} (h : Founded files.dir start s.state) :
    (∃ fault, (load files options).outcome s = .error fault ∧ FileSet.IsDiskFault fault) ∨
      Founded files.dir start ((load files options).after s).state := by
  by_cases hkeep : options.keep = 0
  · rw [load_of_keep_zero hkeep]
    exact .inr h
  · cases hmake : s.state.makeDirectories files.dir with
    | mk result made =>
      cases result with
      | error fault =>
        rw [Op.outcome_of_error (load_of_not_made hkeep hmake)]
        exact .inl ⟨.disk fault, rfl, fault, rfl⟩
      | ok u =>
        rw [after_load files hkeep, hmake]
        right
        rcases h with hstart | ⟨hmake', hdir⟩
        · exact .inr ⟨hstart ▸ hmake, Disk.isDirectory_of_makeDirectories hmake⟩
        · rw [Disk.makeDirectories_eq_self hdir] at hmake
          cases hmake
          exact .inr ⟨hmake', hdir⟩

theorem load_founded (files : FileSet) (options : ArchiveOptions) (start : Disk) :
    (load files options).Uniform FileSet.IsDiskFault
      fun x y => x = y ∧ Founded files.dir start x :=
  (load_same files options).keeping fun _ h => load_founded_after h

/-! ### The directory made before, or then -/

/-- The directory is there on the one disk. The other disk agrees with it in the region, or it is one
    on which the directory has still to be made, and agrees with it after that. -/
def Ahead (region : Place → Prop) (dir : Path) (start made x y : Disk) : Prop :=
  Standing region dir x y ∨ Standing region dir x made ∧ y = start

theorem load_ahead (hfiles : files.Inside region)
    (hmake : start.makeDirectories files.dir = (.ok (), made)) (options : ArchiveOptions) :
    (load files options).Uniform FileSet.IsDiskFault (Ahead region files.dir start made) := by
  by_cases hkeep : options.keep = 0
  · rw [load_of_keep_zero hkeep]
    exact Op.uniform_throw _
  rintro s ⟨y, events⟩ (hstanding | ⟨hstanding, rfl⟩)
  · exact (load_uniform hfiles options s ⟨y, events⟩ hstanding).imp id fun ⟨hsame, hafter⟩ =>
      ⟨hsame, .inl hafter⟩
  · have hmade : made.makeDirectories files.dir = (.ok (), made) :=
      Disk.makeDirectories_eq_self ((hfiles.isDirectory_congr hstanding.1).1 hstanding.2)
    have hstart : load files options ⟨y, events⟩ = load files options ⟨made, events⟩ := by
      rw [load_of_made (s := ⟨y, events⟩) hkeep hmake,
        load_of_made (s := ⟨made, events⟩) hkeep hmade]
    obtain ⟨houtcome, hafter⟩ := Op.outcome_after_congr hstart
    rw [houtcome, hafter]
    exact (load_uniform hfiles options s ⟨made, events⟩ hstanding).imp id
      fun ⟨hsame, hafter⟩ => ⟨hsame, .inl hafter⟩

/-- Where no defaults are found once the directory has been made, none are found before. -/
theorem readDefaults_ahead (hfiles : files.Inside region)
    (hmake : start.makeDirectories files.dir = (.ok (), made))
    (hdefaults : start.bytesAt files.defaults.place = none) :
    files.readDefaults.Uniform FileSet.IsDiskFault (Ahead region files.dir start made) := by
  have hcovers := hfiles.covers files.owns_defaults
  have hgrows : start.Grows made := by
    have hgrows := start.makeDirectories_grows files.dir
    rwa [hmake] at hgrows
  rintro s ⟨y, events⟩ (hstanding | ⟨hstanding, rfl⟩)
  · exact (FileSet.readDefaults_uniform hfiles (fun _ _ h => h.1) s ⟨y, events⟩ hstanding).imp id
      fun ⟨hsame, hafter⟩ => ⟨hsame, .inl hafter⟩
  · cases hread : FileSet.readIfPresent files.defaults s.state with
    | error fault =>
      have hfails : files.readDefaults s = .error fault s :=
        Op.bind_of_error (Op.look_of_error hread)
      exact .inl ⟨fault, Op.outcome_of_error hfails, FileSet.isDiskFault_of_readIfPresent hread⟩
    | ok found =>
      have hmade : FileSet.readIfPresent files.defaults made = .ok found :=
        (FileSet.readIfPresent_congr hstanding.1 hcovers).symm.trans hread
      cases found with
      | some bytes =>
        obtain ⟨-, hfile⟩ := Disk.read_eq_ok_iff.1 (FileSet.readIfPresent_eq_some_iff.1 hmade)
        rw [← hgrows.bytesAt_eq, Disk.bytesAt, hfile] at hdefaults
        cases hdefaults
      | none =>
        have hstart : FileSet.readIfPresent files.defaults y = .ok none :=
          FileSet.readIfPresent_eq_none_iff.2
            (hgrows.read_notFound (FileSet.readIfPresent_eq_none_iff.1 hmade))
        have hnone : ∀ u : Journaled Disk, FileSet.readIfPresent files.defaults u.state = .ok none →
            files.readDefaults u = .ok none u := fun u hu => Op.bind_of_ok (Op.look_of_ok hu)
        have hs := hnone s hread
        have hy := hnone ⟨y, events⟩ hstart
        rw [Op.outcome_of_ok hs, Op.outcome_of_ok hy, Op.after_of_ok hs, Op.after_of_ok hy]
        exact .inr ⟨rfl, .inr ⟨hstanding, rfl⟩⟩

end Archive

namespace Store

variable {region : Place → Prop} {dir : Path} {settings : Settings} {start made : Disk}

/-- Opening a store makes the directory at most. -/
theorem openWith_founded (dir : Path) (settings : Settings) (start : Disk) :
    (∃ fault, (openWith dir settings).outcome ⟨start, []⟩ = .error fault ∧
        openMayFail FileSet.IsDiskFault fault) ∨
      Archive.Founded dir start ((openWith dir settings).after ⟨start, []⟩).state := by
  have huniform : (openWith dir settings).Uniform (openMayFail FileSet.IsDiskFault)
      fun x y => x = y ∧ Archive.Founded dir start x :=
    openWith_uniform_of
      (FileSet.readDefaults_uniform (FileSet.inside_everywhere _) fun x y h => h.1 ▸ .refl _ _)
      fun options => Archive.load_founded ⟨dir, settings.instanceId⟩ options start
  exact (huniform ⟨start, []⟩ ⟨start, []⟩ ⟨rfl, .inl rfl⟩).imp id fun h => h.2.2

/-- It makes no difference whether the directory has been made before a store is opened, or is made
    then. -/
theorem openWith_ahead (hfiles : FileSet.Inside ⟨dir, settings.instanceId⟩ region)
    (hmake : start.makeDirectories dir = (.ok (), made))
    (hdefaults : start.bytesAt
      (FileSet.defaults ⟨dir, settings.instanceId⟩).place = none) :
    (openWith dir settings).Uniform (openMayFail FileSet.IsDiskFault)
      (Archive.Ahead region dir start made) :=
  openWith_uniform_of (Archive.readDefaults_ahead hfiles hmake hdefaults)
    (Archive.load_ahead hfiles hmake)

end Store

end TypedStore
