/-
  TypedStore/Proofs/Store/Neighbours.lean
  =======================================
  **Stores that share a directory.**

  What a store on files does depends on its territory only: where two disks agree in the territory, it
  gives the same replies, and the disks agree there afterwards (`uniform_of_onFiles`). And it does
  nothing to the territory of another store in the directory, unless a file operation has failed
  (`Task.apart`). The latter is the former with everything for a region, and with what a commit leaves
  added to the relation.
-/
import TypedStore.Proofs.Archive.Locality
import TypedStore.Proofs.Store.OpenStores
import TypedStore.Proofs.Store.Replies

namespace TypedStore

namespace Archive

variable {files other : FileSet} {region : Place → Prop} {start : Disk}

/-- The archives are the same, on these files, and the disks agree in a region. -/
structure Matches (files : FileSet) (region : Place → Prop) (s t : Mounted) : Prop where
  archive : s.archive = t.archive
  files_eq : s.archive.files = files
  agree : Disk.AgreeOn region s.disk t.disk

theorem Matches.files_eq' {s t : Mounted} (h : Matches files region s t) :
    t.archive.files = files := h.archive ▸ h.files_eq

theorem replace_uniform {p : StorageFault → Prop} (hfiles : files.Inside region)
    (entries : Json.RawObject) : (replace entries).Uniform p (Matches files region) := by
  apply Op.Mirrors.excuse
  apply Op.Mirrors.state_bind
  intro s t h
  have hcommit : ((t.archive.files.commit t.archive.keep t.archive.committed entries.toBytes).within
      Mounted.disk fun s disk => { s with disk := disk }).Uniform (fun _ => False)
        (Matches files region) := by
    rw [h.files_eq']
    exact (FileSet.commit_seesOnly hfiles t.archive.keep t.archive.committed entries.toBytes).within
      (fun _ _ h => h.agree) fun _ _ h _ _ hnext => ⟨h.archive, h.files_eq, hnext⟩
  rw [h.archive]
  apply hcommit.bind
  intro _
  apply Op.Mirrors.state_bind
  intro s' t' h'
  exact Op.mirrors_setState ⟨rfl, h.files_eq', h'.agree⟩

/-! ### The medium -/

section Medium

variable {p : StorageFault → Prop} {r : Mounted → Mounted → Prop}
  (hmatch : ∀ s t, r s t → Matches files region s t)
include hmatch

theorem current_uniform : current.Uniform p r := by
  apply Op.Mirrors.state_bind
  intro s t h
  rw [(hmatch s t h).archive]
  exact Op.uniform_pure _

/-- All that the medium does is to look at the entries in memory, and to replace them. -/
theorem medium_uniform (hreplace : ∀ entries, (replace entries).Uniform p r) :
    medium.Uniform p r := by
  have hcurrent := current_uniform (p := p) hmatch
  have htext : ∀ key, (keyText key).Uniform p r := fun key => Op.uniform_ofExcept _
  constructor
  · intro key value
    rw [persist_eq]
    apply (htext key).bind
    intro name
    apply (Op.uniform_ofExcept _).bind
    intro raw
    exact hcurrent.bind fun entries => hreplace _
  · intro key
    exact (htext key).bind fun name => hcurrent.bind fun entries => Op.uniform_pure _
  · intro key
    rw [remove_eq]
    apply (htext key).bind
    intro name
    apply hcurrent.bind
    intro entries
    split
    · exact (hreplace _).bind fun _ => Op.uniform_pure true
    · exact Op.uniform_pure false
  · exact hcurrent.bind fun entries => Op.uniform_pure _
  · intro key
    exact (htext key).bind fun name => hcurrent.bind fun entries => Op.uniform_pure _
  · rw [clear_eq]
    apply hcurrent.bind
    intro entries
    split
    · exact Op.uniform_pure 0
    · exact (hreplace .empty).bind fun _ => Op.uniform_pure _

theorem snapshots_uniform (hfiles : files.Inside region)
    (hreplace : ∀ entries, (replace entries).Uniform p r) : snapshots.Uniform p r := by
  have hdata : ∀ generation, Disk.Covers region (files.data generation) :=
    fun generation => hfiles.covers (files.owns_data generation)
  have hchecksum : ∀ generation, Disk.Covers region (files.checksum generation) :=
    fun generation => hfiles.covers (files.owns_checksum generation)
  constructor
  · intro s t h
    exact congrArg Archive.keep (hmatch s t h).archive
  · intro s t h
    have hst := hmatch s t h
    change s.archive.files.countFrom s.disk 0 s.archive.keep =
      t.archive.files.countFrom t.disk 0 t.archive.keep
    rw [hst.archive, hst.files_eq', FileSet.countFrom_congr hst.agree hfiles]
  · intro generation
    change (restore generation).Uniform p r
    rw [restore_eq]
    apply Op.Mirrors.state_bind
    intro s t h
    have hst := hmatch s t h
    rw [hst.archive, hst.files_eq']
    apply (Op.mirrors_look fun s t h => by
      rw [Disk.read_congr (hmatch s t h).agree (hdata generation)]).bind
    intro bytes
    apply (Op.mirrors_look fun s t h =>
      FileSet.parseVerified_congr (hmatch s t h).agree (hchecksum generation)).bind
    intro entries
    exact (hreplace entries).bind fun _ => Op.uniform_report _
  · intro s t h
    have hst := hmatch s t h
    funext generation
    simp only [snapshots, hst.archive, hst.files_eq',
      Disk.contains_congr hst.agree (hdata generation)]
  · intro s t h
    have hst := hmatch s t h
    funext generation
    simp only [snapshots, hst.archive, hst.files_eq',
      Disk.contains_congr hst.agree (hchecksum generation)]

end Medium

/-! ### What a replacement leaves -/

/-- The archive is on these files, the directory is there, and in the territory of another store the
    disk is as it has been. -/
structure Apart (files other : FileSet) (start : Disk) (s : Mounted) : Prop where
  files_eq : s.archive.files = files
  isDirectory : s.disk.isDirectory files.dir
  agree : Disk.AgreeOn other.territory start s.disk

/-- If replacing the entries fails a file operation has failed, else there has been a commit. -/
theorem replace_after (entries : Json.RawObject) (s : Journaled Mounted) :
    (∃ fault, (replace entries).outcome s = .error fault ∧ FileSet.IsDiskFault fault) ∨
      ∃ r, s.state.archive.files.commit s.state.archive.keep s.state.archive.committed
          entries.toBytes ⟨s.state.disk, s.events⟩ = .ok () r ∧
        ((replace entries).after s).state.disk = r.state ∧
        ((replace entries).after s).state.archive.files = s.state.archive.files := by
  cases hreplace : replace entries s with
  | error fault t =>
    exact .inl ⟨fault, Op.outcome_of_error hreplace, replace_failsOnly entries s fault t hreplace⟩
  | ok u t =>
    rw [Op.after_of_ok hreplace]
    obtain ⟨r, hcommit, rfl⟩ := replace_eq_ok_iff.1 hreplace
    exact .inr ⟨r, hcommit, rfl, rfl⟩

/-- After a replacement that succeeds the directory is there. -/
theorem replace_isDirectory (entries : Json.RawObject) {s : Journaled Mounted}
    (h : s.state.archive.files = files) :
    (∃ fault, (replace entries).outcome s = .error fault ∧ FileSet.IsDiskFault fault) ∨
      ((replace entries).after s).state.disk.isDirectory files.dir := by
  refine (replace_after entries s).imp id ?_
  rintro ⟨r, hcommit, hdisk, -⟩
  rw [h] at hcommit
  rw [hdisk]
  exact isDirectory_of_read (FileSet.commit_current hcommit).1

/-- And other stores in the directory are left alone. -/
theorem replace_apart (hdir : other.dir = files.dir) (hid : other.id ≠ files.id)
    (entries : Json.RawObject) (s : Journaled Mounted) (h : Apart files other start s.state) :
    (∃ fault, (replace entries).outcome s = .error fault ∧ FileSet.IsDiskFault fault) ∨
      Apart files other start ((replace entries).after s).state := by
  refine (replace_after entries s).imp id ?_
  rintro ⟨r, hcommit, hdisk, hfiles⟩
  rw [h.files_eq] at hcommit hfiles
  obtain ⟨hagree, hexists⟩ := FileSet.commit_leaves_territory hdir hid h.isDirectory hcommit
  refine ⟨hfiles, ?_, ?_⟩
  · rw [hdisk]
    exact hexists
  · rw [hdisk]
    exact h.agree.trans hagree

end Archive

namespace Store

variable {files other : FileSet} {region : Place → Prop} {start : Disk} {opened : OpenStore}

/-- The store is one on these files. -/
structure OpenStore.OnFiles (files : FileSet) (opened : OpenStore) : Prop where
  medium_eq : opened.store.medium = Archive.medium
  snapshots_eq : opened.store.snapshots = some Archive.snapshots
  files_eq : opened.archive.files = files

theorem uniform_of_replace {store : Store Mounted} {p : StorageFault → Prop}
    {r : Mounted → Mounted → Prop} (hmedium : store.medium = Archive.medium)
    (hsnapshots : store.snapshots = some Archive.snapshots) (hfiles : files.Inside region)
    (hmatch : ∀ s t, r s t → Archive.Matches files region s t)
    (hreplace : ∀ entries, (Archive.replace entries).Uniform p r) : store.Uniform p r := by
  constructor
  · rw [hmedium]
    exact Archive.medium_uniform hmatch hreplace
  · intro snapshots heq
    rw [hsnapshots] at heq
    cases heq
    exact Archive.snapshots_uniform hmatch hfiles hreplace

/-- A store on files does the same on disks that agree in a region that the files are inside; and the
    directory stays where it is. -/
theorem uniform_of_onFiles (h : opened.OnFiles files) (hfiles : files.Inside region) :
    opened.store.Uniform FileSet.IsDiskFault fun s t =>
      Archive.Matches files region s t ∧ s.disk.isDirectory files.dir := by
  refine uniform_of_replace h.medium_eq h.snapshots_eq hfiles (fun _ _ h => h.1) fun entries => ?_
  intro s t hst
  have hmirrors := Archive.replace_uniform (p := FileSet.IsDiskFault) hfiles entries s t hst.1
  rcases Archive.replace_isDirectory entries hst.1.files_eq with hfault | hdir
  · exact .inl hfault
  · exact hmirrors.imp id fun ⟨hsame, hafter⟩ => ⟨hsame, hafter, hdir⟩

/-- Whatever a store is asked to do, it leaves other stores in the directory alone, and the directory
    where it is; unless it tells of a file operation that has failed. -/
theorem Task.apart (h : opened.OnFiles files) (hdir : other.dir = files.dir)
    (hid : other.id ≠ files.id) (task : Task) {s : Journaled (Session Mounted)}
    (hs : Archive.Apart files other start s.state.medium) :
    (task.reply opened.store s).FailsBy FileSet.IsDiskFault ∨
      Archive.Apart files other start (task.after opened.store s).state.medium := by
  have huniform : opened.store.Uniform FileSet.IsDiskFault fun s t =>
      Archive.Matches files (fun _ => True) s t ∧ Archive.Apart files other start s :=
    uniform_of_replace h.medium_eq h.snapshots_eq files.inside_everywhere (fun _ _ h => h.1)
      fun entries => (Archive.replace_uniform files.inside_everywhere entries).keeping
        (Archive.replace_apart hdir hid entries)
  have hself : Archive.Matches files (fun _ => True) s.state.medium s.state.medium :=
    ⟨rfl, hs.files_eq, .refl _ _⟩
  exact (task.uniform huniform (t := s) ⟨⟨hself, hs⟩, rfl⟩).imp id fun h => h.2.medium.2

/-! ### Opening -/

/-- The faults of opening that come from the medium. -/
def openMayFail (mayFail : StorageFault → Prop) : OpenFault → Prop
  | .storage fault => mayFail fault
  | _ => False

instance (p : StorageFault → Prop) [DecidablePred p] : DecidablePred (openMayFail p)
  | .storage fault => inferInstanceAs (Decidable (p fault))
  | .config _ | .invalidDefault .. | .corruptDefault .. | .defaultsMissing _ => isFalse id

/-- Opening a store reads the defaults and loads the files, and else depends on the settings only. -/
theorem openWith_uniform_of {dir : Path} {settings : Settings} {p : StorageFault → Prop}
    {r : Disk → Disk → Prop}
    (hread : (FileSet.readDefaults ⟨dir, settings.instanceId⟩).Uniform p r)
    (hload : ∀ options, (Archive.load ⟨dir, settings.instanceId⟩ options).Uniform p r) :
    (openWith dir settings).Uniform (openMayFail p) r := by
  have hdefaults : ∀ mode,
      (readDefaults ⟨dir, settings.instanceId⟩ mode).Uniform (openMayFail p) r := by
    intro mode
    have hfile : ((FileSet.readDefaults ⟨dir, settings.instanceId⟩).mapError
        OpenFault.storage).Uniform (openMayFail p) r := hread.mapError fun _ => id
    unfold readDefaults
    split
    · exact Op.uniform_pure []
    · apply hfile.bind
      rintro (_ | entries)
      · dsimp only
        split
        · exact Op.uniform_throw _
        · exact Op.uniform_pure []
      · exact Op.uniform_ofExcept _
  have hbuild : (build Archive.medium (some Archive.snapshots) settings :
      Op OpenFault Disk (Store Mounted)).Uniform (openMayFail p) r :=
    (Op.uniform_ofExcept _).bind fun _ => (Op.uniform_report _).bind fun _ => Op.uniform_pure _
  have hloads : ∀ options, ((Archive.load ⟨dir, settings.instanceId⟩ options).mapError
      OpenFault.storage).Uniform (openMayFail p) r :=
    fun options => (hload options).mapError fun _ => id
  apply (Op.uniform_ofExcept _).bind
  intro _
  apply (Op.uniform_ofExcept _).bind
  intro defaultsMode
  apply (hdefaults defaultsMode).bind
  intro defaults
  apply (Op.uniform_ofExcept _).bind
  intro loadMode
  apply (hloads _).bind
  intro archive
  apply hbuild.bind
  intro store
  exact (Op.uniform_ofExcept _).bind fun _ => Op.uniform_pure _

/-- Where the directory is there, opening a store has the same outcome on disks that agree in the
    territory of its files. -/
theorem openWith_uniform {dir : Path} {settings : Settings} {p : StorageFault → Prop}
    (hfiles : FileSet.Inside ⟨dir, settings.instanceId⟩ region) :
    (openWith dir settings).Uniform (openMayFail p) (Archive.Standing region dir) :=
  openWith_uniform_of (FileSet.readDefaults_uniform hfiles fun _ _ h => h.1)
    (Archive.load_uniform hfiles)

/-- What opening a store comes to depends on the disk only. -/
theorem openWith_same {p : StorageFault → Prop} (dir : Path) (settings : Settings) :
    (openWith dir settings).Uniform (openMayFail p) fun x y => x = y :=
  openWith_uniform_of
    (FileSet.readDefaults_uniform (FileSet.inside_everywhere _) (by rintro x _ rfl; exact .refl _ x))
    (Archive.load_same _)

/-- A store that has been opened is one on its files, and the directory is there. -/
theorem onFiles_of_openWith {dir : Path} {settings : Settings} {s t : Journaled Disk}
    {store : Store Mounted} {archive : Archive}
    (h : openWith dir settings s = .ok (store, archive) t) :
    OpenStore.OnFiles ⟨dir, settings.instanceId⟩ ⟨store, archive, .empty⟩ ∧
      t.state.isDirectory dir := by
  obtain ⟨hmedium, hsnapshots, -, options, before, opened, hload, hstate⟩ := openWith_eq_ok h
  obtain ⟨_, _, _, -, -, -, -, harchive, -⟩ := Archive.load_eq_ok_iff.1 hload
  refine ⟨⟨hmedium, hsnapshots, by rw [harchive]⟩, ?_⟩
  rw [hstate]
  exact Archive.isDirectory_of_load hload

end Store

end TypedStore
