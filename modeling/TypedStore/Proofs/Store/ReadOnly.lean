/-
  TypedStore/Proofs/Store/ReadOnly.lean
  =====================================
  **Opening a store changes no file.**

  However an opening ends, the disk is as before, but for the directories of its path that had been
  missing (`openWith_leaves`), and, where the settings are those of the directory, a settings file where
  there was nothing (`openDirectory_furnishes`).

  So an opening can be repeated, and comes to the same (`openWith_again`, `openDirectory_again`). That is
  not as evident as it seems, for the defaults are looked for before the directory is made. What is
  found then has to be what is found the second time; and it is not if the path leads up from something
  that is missing to a directory that is there (`opening_finds_defaults_again`).
-/
import TypedStore.Proofs.Disk.Making
import TypedStore.Proofs.Store.DefaultsFile
import TypedStore.Proofs.Store.FirstOpening

namespace TypedStore

/-! ### Repeating -/

namespace Op

variable {ε σ α : Type} {op : Op ε σ α} {s : Journaled σ}

/-- However often it is repeated, the operation comes to what it has come to at first, as long as
    nothing else changes the state. -/
def Repeats (op : Op ε σ α) (s : Journaled σ) : Prop :=
  ∀ n (t : Journaled σ), t.state = (op.after^[n] s).state → op.outcome t = op.outcome s

theorem Uniform.of_state_eq {p : ε → Prop} {t : Journaled σ} (h : op.Uniform p fun x y => x = y)
    (hp : ∀ e, ¬ p e) (heq : t.state = s.state) :
    op.outcome t = op.outcome s ∧ (op.after t).state = (op.after s).state := by
  rcases h t s heq with ⟨e, -, he⟩ | hsame
  · exact absurd he (hp e)
  · exact hsame

theorem repeats_of_again (hsame : ∀ t : Journaled σ, t.state = s.state → op.outcome t = op.outcome s)
    (hagain : ∀ t : Journaled σ, t.state = (op.after s).state →
      op.outcome t = op.outcome s ∧ (op.after t).state = t.state) : op.Repeats s := by
  have hstate : ∀ n, (op.after^[n + 1] s).state = (op.after s).state := by
    intro n
    induction n with
    | zero => rfl
    | succ n ih =>
      rw [Function.iterate_succ_apply', (hagain _ ih).2, ih]
  intro n t ht
  cases n with
  | zero => exact hsame t ht
  | succ n => exact (hagain t (ht.trans (hstate n))).1

end Op

namespace Store

variable {files : FileSet} {mode : LoadMode} {s t : Journaled Disk} {dir : Path}
  {settings : Settings} {values : List (String × Value)}

/-! ### Reading the defaults before the directory has been made -/

theorem readDefaults_ignored (h : mode = .ignored) : readDefaults files mode s = .ok [] s := by
  rw [readDefaults, if_pos h]
  rfl

theorem readDefaults_of_read_error {fault : DiskFault}
    (hread : s.state.read files.defaults = .error fault) (hmode : mode ≠ .ignored)
    (hfault : fault ≠ .notFound) :
    readDefaults files mode s = .error (.storage (.disk fault)) s := by
  have hfile : files.readDefaults s = .error (.disk fault) s :=
    Op.bind_of_error (Op.look_of_error (FileSet.readIfPresent_of_read_error hread hfault))
  unfold readDefaults
  rw [if_neg hmode, Op.bind_of_error (Op.mapError_of_error hfile)]

/-- Where the directory is missing no defaults are read, and none are required. -/
theorem readDefaults_of_not_isDirectory (hdir : ¬ s.state.isDirectory files.dir)
    (h : readDefaults files mode s = .ok values t) :
    values = [] ∧ t = s ∧
      (mode = .ignored ∨ mode = .optional ∧ s.state.read files.defaults = .error .notFound) := by
  by_cases hmode : mode = .ignored
  · rw [readDefaults_ignored hmode] at h
    cases h
    exact ⟨rfl, rfl, .inl hmode⟩
  cases hread : s.state.read files.defaults with
  | ok bytes =>
    obtain ⟨hreaches, -⟩ := Disk.read_eq_ok_iff.1 hread
    exact absurd (Disk.isDirectory_eq_true_iff.2 (Disk.Reaches.dir hreaches)) hdir
  | error fault =>
    by_cases hfault : fault = .notFound
    · subst hfault
      rw [readDefaults_of_notFound hread hmode] at h
      cases mode with
      | ignored => exact absurd rfl hmode
      | required => cases h
      | optional =>
        cases h
        exact ⟨rfl, rfl, .inr ⟨rfl, rfl⟩⟩
    · rw [readDefaults_of_read_error hread hmode hfault] at h
      cases h

/-- Nor are they read once the directory has been made. If it could not be made, looking for them may
    fail, for the same reason. -/
theorem readDefaults_again {result : Except DiskFault Unit} {made : Disk} (htree : s.state.IsTree)
    (hup : ¬ s.state.LeadsUpFromMissing files.dir) (hid : files.id < 2 ^ 64)
    (hdir : ¬ s.state.isDirectory files.dir) (h : readDefaults files mode s = .ok values t)
    (hmake : s.state.makeDirectories files.dir = (result, made)) {u : Journaled Disk}
    (hmade : u.state = made) :
    readDefaults files mode u = .ok [] u ∨
      ∃ fault, result = .error fault ∧ readDefaults files mode u = .error (.storage (.disk fault)) u := by
  subst hmade
  obtain ⟨-, -, rfl | ⟨rfl, hread⟩⟩ := readDefaults_of_not_isDirectory hdir h
  · exact .inl (readDefaults_ignored rfl)
  have hname : Path.IsName (files.fileName "default.json") := FileSet.isName_fileName (by decide)
  have hlength := FileSet.utf8ByteSize_fileName hid "default.json"
  have hnone : u.state.read files.defaults = .error .notFound →
      readDefaults files .optional u = .ok [] u := fun hu => readDefaults_of_notFound hu nofun
  rcases Disk.read_child_again htree hup hname (hlength.trans (by decide)) hdir hread hmake
    with hstill | ⟨fault, hresult, hfault⟩
  · exact .inl (hnone hstill)
  · by_cases hmissing : fault = .notFound
    · exact .inl (hnone (hmissing ▸ hfault))
    · exact .inr ⟨fault, hresult, readDefaults_of_read_error hfault nofun hmissing⟩

/-! ### Opening with given settings -/

theorem not_openMayFail (fault : OpenFault) : ¬ openMayFail (fun _ => False) fault := by
  cases fault <;> exact id

/-- If the first opening gets to the point where it makes the directory, the second one finds what the
    first has made, and nothing that the first could not see. -/
theorem openWith_again_of_not_isDirectory {defaultsMode : LoadMode} (htree : s.state.IsTree)
    (hup : ¬ s.state.LeadsUpFromMissing dir) (hid : settings.instanceId < 2 ^ 64)
    (hcheck : settings.check = .ok ()) (hdefaults : settings.defaultsMode = .ok defaultsMode)
    (hdir : ¬ s.state.isDirectory dir) {u : Journaled Disk}
    (hread : readDefaults ⟨dir, settings.instanceId⟩ defaultsMode s = .ok values u)
    (ht : t.state = ((openWith dir settings).after s).state) :
    (openWith dir settings).outcome t = (openWith dir settings).outcome s ∧
      ((openWith dir settings).after t).state = t.state := by
  obtain ⟨⟨policy, hpolicy⟩, -, -, hkeep, -, loadMode, hmode⟩ := Settings.check_eq_ok_iff.1 hcheck
  obtain ⟨rfl, rfl, -⟩ := readDefaults_of_not_isDirectory hdir hread
  obtain ⟨houtcome, hafter⟩ := openWith_of_readDefaults hcheck hdefaults hpolicy hmode hread
  cases hmake : u.state.makeDirectories dir with
  | mk result made =>
    have hmade : t.state = made := by
      rw [ht, hafter, Archive.after_load _ hkeep, hmake]
    have hagain : t.state.makeDirectories dir = (result, made) := by
      rw [hmade]
      exact Disk.makeDirectories_twice htree hup hmake
    rcases readDefaults_again htree hup hid hdir hread hmake hmade
      with hnone | ⟨fault, rfl, hfault⟩
    · obtain ⟨houtcome', hafter'⟩ := openWith_of_readDefaults hcheck hdefaults hpolicy hmode hnone
      rw [houtcome', houtcome, hafter', Archive.after_load _ hkeep, hagain, hmade,
        Archive.load_outcome_of_same_making hkeep (hagain.trans hmake.symm)]
      exact ⟨rfl, rfl⟩
    · have hfails := openWith_of_readDefaults_error hcheck hdefaults hfault
      have hload : Archive.load ⟨dir, settings.instanceId⟩ ⟨loadMode, settings.snapshotMaxCount⟩ u =
          .error (.disk fault) ⟨made, u.events⟩ := Archive.load_of_not_made hkeep hmake
      rw [Op.outcome_of_error hfails, Op.after_of_error hfails, houtcome, Op.outcome_of_error hload]
      exact ⟨rfl, rfl⟩

/-- Opening a store a second time comes to the same, and makes nothing more. -/
theorem openWith_again (htree : s.state.IsTree) (hup : ¬ s.state.LeadsUpFromMissing dir)
    (hid : settings.instanceId < 2 ^ 64)
    (ht : t.state = ((openWith dir settings).after s).state) :
    (openWith dir settings).outcome t = (openWith dir settings).outcome s ∧
      ((openWith dir settings).after t).state = t.state := by
  have hsame : t.state = s.state → (openWith dir settings).outcome t =
      (openWith dir settings).outcome s ∧ ((openWith dir settings).after t).state = t.state := by
    intro heq
    obtain ⟨houtcome, hafter⟩ := (openWith_same dir settings).of_state_eq not_openMayFail heq
    exact ⟨houtcome, hafter.trans ht.symm⟩
  cases hcheck : settings.check with
  | error fault =>
    have hopen : openWith dir settings s = .error (.config (.setting fault)) s := by
      unfold openWith
      rw [hcheck]
      rfl
    exact hsame (ht.trans (by rw [Op.after_of_error hopen]))
  | ok _ =>
    obtain ⟨-, -, -, -, ⟨defaultsMode, hdefaults⟩, -⟩ := Settings.check_eq_ok_iff.1 hcheck
    cases hread : readDefaults ⟨dir, settings.instanceId⟩ defaultsMode s with
    | error fault u =>
      have hleaves := readDefaults_leaves (r := fun x y => y = x) (fun _ => rfl)
        (fun hab hbc => hbc.trans hab) ⟨dir, settings.instanceId⟩ defaultsMode s
      rw [Op.after_of_error hread] at hleaves
      refine hsame (ht.trans ?_)
      rw [Op.after_of_error (openWith_of_readDefaults_error hcheck hdefaults hread), hleaves]
    | ok values u =>
      by_cases hdir : s.state.isDirectory dir
      · exact hsame (ht.trans (openWith_settled dir settings s hdir))
      · exact openWith_again_of_not_isDirectory htree hup hid hcheck hdefaults hdir hread ht

/-! ### The settings file -/

theorem makeFile_eq_ok {path : Path} {disk made : Disk}
    (h : Settings.makeFile path disk = .ok made) :
    made.contains path ∧ (made = disk ∨ disk.lookup? path.place = none ∧
      made = disk.set path.place (.file (Utf8.encode Settings.defaultText))) := by
  unfold Settings.makeFile at h
  split at h
  · next hcontains =>
    cases h
    exact ⟨hcontains, .inl rfl⟩
  · next hmissing =>
    obtain ⟨hreaches, hplace, rfl⟩ := Disk.write_eq_ok_iff.1 (Except.mapError_eq_ok_iff.1 h)
    have hroot := Disk.ne_root_of_not_directory hplace
    have hnone : disk.lookup? path.place = none := by
      rw [Disk.contains_eq_true_iff] at hmissing
      simpa [hreaches] using hmissing
    refine ⟨Disk.contains_eq_true_iff.2 ⟨hreaches.mono (Disk.hasDirectories_set hplace _), ?_⟩,
      .inr ⟨hnone, rfl⟩⟩
    rw [Disk.lookup?_set_self hroot]
    rfl

/-- The other disk is the same, but for directories that the path is written with, and for the settings
    file of the directory, where there has been nothing. -/
def Furnishes (dir : Path) (disk other : Disk) : Prop :=
  ∀ place, other.lookup? place = disk.lookup? place ∨ disk.lookup? place = none ∧
    (other.lookup? place = some .directory ∧ (∃ path ∈ dir :: dir.above, place = path.place) ∨
      other.lookup? place = some (.file (Utf8.encode Settings.defaultText)) ∧
        place = (dir.child Settings.fileName).place)

theorem Furnishes.refl (dir : Path) (disk : Disk) : Furnishes dir disk disk := fun _ => .inl rfl

theorem Furnishes.trans {a b c : Disk} (hab : Furnishes dir a b) (hbc : Furnishes dir b c) :
    Furnishes dir a c := by
  intro place
  rcases hbc place with hsame | ⟨hnone, hmade⟩
  · rw [hsame]
    exact hab place
  · rcases hab place with hsame | ⟨-, ⟨hdir, -⟩ | ⟨hfile, -⟩⟩
    · exact .inr ⟨hsame ▸ hnone, hmade⟩
    · rw [hnone] at hdir
      cases hdir
    · rw [hnone] at hfile
      cases hfile

theorem furnishes_of_growsAlong {disk other : Disk} (h : disk.GrowsAlong (dir :: dir.above) other) :
    Furnishes dir disk other :=
  fun place => (h place).imp_right fun ⟨hnone, hdir, hpath⟩ => ⟨hnone, .inl ⟨hdir, hpath⟩⟩

theorem furnishes_of_makeFile {disk made : Disk}
    (h : Settings.makeFile (dir.child Settings.fileName) disk = .ok made) :
    Furnishes dir disk made := by
  obtain ⟨-, rfl | ⟨hnone, rfl⟩⟩ := makeFile_eq_ok h
  · exact .refl dir made
  · intro place
    have hroot := Disk.ne_root_of_not_directory (by rw [hnone]; exact nofun)
    by_cases hplace : place = (dir.child Settings.fileName).place
    · rw [hplace, Disk.lookup?_set_self hroot]
      exact .inr ⟨hnone, .inr ⟨rfl, rfl⟩⟩
    · exact .inl (Disk.lookup?_set_ne hplace)

theorem Furnishes.hasDirectories {disk other : Disk} (h : Furnishes dir disk other) :
    disk.HasDirectories other := by
  intro place hdir
  rcases h place with hsame | ⟨hnone, -⟩
  · rw [hsame, hdir]
  · rw [hnone] at hdir
    cases hdir

/-! ### Opening with the settings of the directory -/

/-- What opening a directory does once there is a settings file. -/
def openFurnished (dir : Path) : Op OpenFault Disk (Store Mounted × Archive) := do
  let settings ← Op.look fun disk =>
    (Settings.ofFile (dir.child Settings.fileName) disk).mapError .config
  openWith dir settings

/-- What opening a directory does once it is there. -/
def openFound (dir : Path) : Op OpenFault Disk (Store Mounted × Archive) := do
  Op.change fun disk =>
    (Settings.makeFile (dir.child Settings.fileName) disk).mapError .config
  openFurnished dir

theorem openDirectory_eq (dir : Path) : openDirectory dir =
    (Op.step fun disk => disk.makeDirectories dir).mapError (fun e => OpenFault.storage (.disk e)) >>=
      fun _ => openFound dir := rfl

/-! #### What is left on the disk -/

theorem openFurnished_leaves {r : Disk → Disk → Prop} (hrefl : ∀ disk, r disk disk)
    (htrans : ∀ {a b c}, r a b → r b c → r a c)
    (hmake : ∀ disk : Disk, r disk (disk.makeDirectories dir).2) : (openFurnished dir).Leaves r := by
  apply (Op.leaves_look hrefl _).bind htrans
  intro settings
  exact openWith_leaves hrefl htrans hmake settings

theorem openFound_furnishes (dir : Path) : (openFound dir).Leaves (Furnishes dir) := by
  have hrefl := Furnishes.refl dir
  have hfurnished := openFurnished_leaves hrefl Furnishes.trans
    fun disk => furnishes_of_growsAlong (disk.makeDirectories_growsAlong dir)
  refine (Op.leaves_change hrefl ?_).bind Furnishes.trans fun _ => hfurnished
  intro disk made h
  exact furnishes_of_makeFile (Except.mapError_eq_ok_iff.1 h)

/-- Opening a directory makes a settings file at most, where there was none, and the directory. -/
theorem openDirectory_furnishes (dir : Path) : (openDirectory dir).Leaves (Furnishes dir) := by
  have hmake : ∀ disk : Disk, Furnishes dir disk (disk.makeDirectories dir).2 :=
    fun disk => furnishes_of_growsAlong (disk.makeDirectories_growsAlong dir)
  rw [openDirectory_eq]
  exact (Op.leaves_step hmake).mapError.bind Furnishes.trans fun _ => openFound_furnishes dir

/-! #### What it comes to -/

theorem openFurnished_same {p : StorageFault → Prop} (dir : Path) :
    (openFurnished dir).Uniform (openMayFail p) fun x y => x = y :=
  (Op.mirrors_look (by rintro x _ rfl; rfl)).bind fun settings => openWith_same dir settings

theorem openFound_same {p : StorageFault → Prop} (dir : Path) :
    (openFound dir).Uniform (openMayFail p) fun x y => x = y := by
  refine (Op.mirrors_change ?_).bind fun _ => openFurnished_same dir
  rintro x _ rfl
  cases Settings.makeFile (dir.child Settings.fileName) x with
  | ok made => exact .ok rfl
  | error fault => exact .error _

theorem openFound_of_makeFile {made : Disk}
    (h : Settings.makeFile (dir.child Settings.fileName) s.state = .ok made) :
    openFound dir s = openFurnished dir ⟨made, s.events⟩ :=
  Op.bind_of_ok (Op.change_eq_ok_iff (u := ()).2 ⟨made, by rw [h]; rfl, rfl⟩)

/-- Once the directory is there, opening it a second time comes to the same. -/
theorem openFound_again (hdir : s.state.isDirectory dir)
    (ht : t.state = ((openFound dir).after s).state) :
    (openFound dir).outcome t = (openFound dir).outcome s ∧
      ((openFound dir).after t).state = t.state := by
  cases hmake : Settings.makeFile (dir.child Settings.fileName) s.state with
  | error fault =>
    have hfails : openFound dir s = .error (.config fault) s :=
      Op.bind_of_error (Op.change_eq_error_iff.2 ⟨by rw [hmake]; rfl, rfl⟩)
    rw [Op.after_of_error hfails] at ht
    obtain ⟨houtcome, hafter⟩ := (openFound_same dir).of_state_eq not_openMayFail ht
    exact ⟨houtcome, by rw [hafter, Op.after_of_error hfails, ht]⟩
  | ok made =>
    have hdir' : made.isDirectory dir :=
      Disk.isDirectory_mono (furnishes_of_makeFile hmake).hasDirectories hdir
    have hleft := openFurnished_leaves (Archive.Settled.refl dir) Archive.Settled.trans
      (Archive.makeDirectories_settled dir) ⟨made, s.events⟩ hdir'
    obtain ⟨houtcome, hafter⟩ := Op.outcome_after_congr (openFound_of_makeFile hmake)
    have hmade : t.state = made := by rw [ht, hafter, hleft]
    have hkept : Settings.makeFile (dir.child Settings.fileName) t.state = .ok t.state := by
      rw [hmade, Settings.makeFile, if_pos (makeFile_eq_ok hmake).1]
    obtain ⟨houtcome', hafter'⟩ := Op.outcome_after_congr (openFound_of_makeFile hkept)
    obtain ⟨hsame, hsame'⟩ := (openFurnished_same dir).of_state_eq not_openMayFail
      (s := ⟨made, s.events⟩) hmade
    rw [houtcome', houtcome, hafter', hsame, hsame', hleft, hmade]
    exact ⟨rfl, rfl⟩

theorem openDirectory_same {p : StorageFault → Prop} (dir : Path) :
    (openDirectory dir).Uniform (openMayFail p) fun x y => x = y := by
  rw [openDirectory_eq]
  refine Op.Mirrors.bind ?_ fun _ => openFound_same dir
  refine Op.Mirrors.mapError (p := fun _ => False) (Op.mirrors_step ?_) fun _ => False.elim
  rintro x _ rfl
  exact ⟨rfl, rfl⟩

/-- Opening a directory a second time comes to the same, and makes nothing more. -/
theorem openDirectory_again (htree : s.state.IsTree) (hup : ¬ s.state.LeadsUpFromMissing dir)
    (ht : t.state = ((openDirectory dir).after s).state) :
    (openDirectory dir).outcome t = (openDirectory dir).outcome s ∧
      ((openDirectory dir).after t).state = t.state := by
  have hfound : ∀ {u : Journaled Disk} {made : Disk}, u.state.makeDirectories dir = (.ok (), made) →
      openDirectory dir u = openFound dir ⟨made, u.events⟩ := by
    intro u made hmake
    exact Op.bind_of_ok (Op.mapError_eq_ok_iff.2 (Op.step_eq_ok_iff.2 ⟨made, hmake, rfl⟩))
  have hnot_made : ∀ {u : Journaled Disk} {made : Disk} {fault : DiskFault},
      u.state.makeDirectories dir = (.error fault, made) →
        openDirectory dir u = .error (.storage (.disk fault)) ⟨made, u.events⟩ := by
    intro u made fault hmake
    exact Op.bind_of_error (Op.mapError_of_error (by rw [Op.step, hmake]))
  cases hmake : s.state.makeDirectories dir with
  | mk result made =>
    cases result with
    | error fault =>
      have hs := hnot_made hmake
      rw [Op.after_of_error hs] at ht
      have hagain := Disk.makeDirectories_twice htree hup hmake
      have htwice := hnot_made (u := t) (by rw [ht]; exact hagain)
      rw [Op.outcome_of_error hs, Op.outcome_of_error htwice, Op.after_of_error htwice, ht]
      exact ⟨rfl, rfl⟩
    | ok _ =>
      obtain ⟨houtcome, hafter⟩ := Op.outcome_after_congr (hfound hmake)
      rw [hafter] at ht
      have hdir := Disk.isDirectory_of_makeDirectories hmake
      have hdir' : t.state.isDirectory dir := by
        rw [ht]
        exact Disk.isDirectory_mono (openFound_furnishes dir _).hasDirectories hdir
      obtain ⟨houtcome', hafter'⟩ :=
        Op.outcome_after_congr (hfound (Disk.makeDirectories_eq_self hdir'))
      rw [houtcome', houtcome, hafter']
      exact openFound_again hdir ht

/-! ### Opening is read-only -/

/-- However an opening with given settings ends, the disk is the same afterwards, but for directories that
    the path is written with, where there was nothing; so no file has been changed, made or removed. An
    opening with the settings of the directory may make a settings file besides, if there is nothing in
    its place. Unless the path leads up from something that is missing, the opening can be repeated, and
    comes to what it has come to, be it a store or a fault. -/
theorem opening_is_read_only (dir : Path) (settings : Settings) (s : Journaled Disk)
    (hid : settings.instanceId < 2 ^ 64) :
    s.state.GrowsAlong (dir :: dir.above) ((openWith dir settings).after s).state ∧
      Furnishes dir s.state ((openDirectory dir).after s).state ∧
      (s.state.IsTree → ¬ s.state.LeadsUpFromMissing dir →
        (openWith dir settings).Repeats s ∧ (openDirectory dir).Repeats s) := by
  refine ⟨?_, openDirectory_furnishes dir s, fun htree hup => ⟨?_, ?_⟩⟩
  · exact openWith_leaves (Disk.GrowsAlong.refl _) Disk.GrowsAlong.trans
      (fun disk => disk.makeDirectories_growsAlong dir) settings s
  · exact Op.repeats_of_again
      (fun t ht => ((openWith_same dir settings).of_state_eq not_openMayFail ht).1)
      fun t ht => openWith_again htree hup hid ht
  · exact Op.repeats_of_again
      (fun t ht => ((openDirectory_same dir).of_state_eq not_openMayFail ht).1)
      fun t ht => openDirectory_again htree hup ht

/-- The first opening makes the directory and fails for want of the data file, as do the others. -/
theorem opening_is_read_only_required :
    let disk := Disk.empty.set ["d"] .directory
    let opening := openWith ["d", "e"] { kvsLoad := "required" }
    let fault : OpenFault := .storage (.dataMissing ["d", "e", "kvs_0_0.json"])
    (disk.IsTree ∧ ¬ disk.LeadsUpFromMissing ["d", "e"] ∧
      (opening.after ⟨disk, []⟩).state.isDirectory ["d", "e"]) ∧
      ∀ n, opening.outcome (opening.after^[n] ⟨disk, []⟩) = .error fault := by
  intro disk opening fault
  have htree : disk.IsTree := by decide +kernel
  have hup : ¬ disk.LeadsUpFromMissing ["d", "e"] := by decide +kernel
  obtain ⟨-, -, hrepeats⟩ := opening_is_read_only ["d", "e"] { kvsLoad := "required" } ⟨disk, []⟩
    (by decide)
  have hfault : (opening.outcome ⟨disk, []⟩).map (fun _ => ()) = .error fault := by decide +kernel
  refine ⟨⟨htree, hup, by decide +kernel⟩, fun n => ?_⟩
  exact ((hrepeats htree hup).1 n _ rfl).trans (Except.map_eq_error_iff.1 hfault)

/-- Where the path leads up from a directory that the first opening has to make, the second finds
    defaults which the first could not see. -/
theorem opening_finds_defaults_again :
    let disk := ((Disk.empty.set ["d"] .directory).set ["d", "kvs_0_0.json"]
      (.file (Utf8.encode "\x7b\x7d"))).set ["d", "kvs_0_default.json"]
        (.file (Utf8.encode "\x7b\"k\":1\x7d"))
    let opening := openWith ["e", "..", "d"] {}
    disk.IsTree ∧
      opening.outcome ⟨disk, []⟩ =
        .error (.storage (.checksumMissing ["e", "..", "d", "kvs_0_0.hash"])) ∧
      opening.outcome (opening.after ⟨disk, []⟩) =
        .error (.corruptDefault "k" (.malformed [] (.notObject "integer"))) ∧
      ¬ opening.Repeats ⟨disk, []⟩ := by
  intro disk opening
  have hfirst : (opening.outcome ⟨disk, []⟩).map (fun _ => ()) =
      .error (.storage (.checksumMissing ["e", "..", "d", "kvs_0_0.hash"])) := by decide +kernel
  have hsecond : (opening.outcome (opening.after ⟨disk, []⟩)).map (fun _ => ()) =
      .error (.corruptDefault "k" (.malformed [] (.notObject "integer"))) := by decide +kernel
  refine ⟨by decide +kernel, Except.map_eq_error_iff.1 hfirst, Except.map_eq_error_iff.1 hsecond, ?_⟩
  intro hrepeats
  have hsame := hrepeats 1 (opening.after ⟨disk, []⟩) rfl
  rw [Except.map_eq_error_iff.1 hfirst, Except.map_eq_error_iff.1 hsecond] at hsame
  cases hsame

end Store

end TypedStore
