/-
  TypedStore/Proofs/Archive/Locality.lean
  =======================================
  **What happens to the files of a store depends on its territory only.**

  On two disks that agree in a region, an operation that works on files inside the region has the same
  outcome, and the disks agree in the region afterwards (`SeesOnly`). Nothing is assumed of the
  operation but which files it works on: it may fail, and then it fails for the same reason on both.
  Loading may make the directory, and that shows elsewhere; where the directory is there already, the
  same can be said of it (`load_uniform`).
-/
import TypedStore.Proofs.Archive.Territory
import TypedStore.Proofs.Mirrors

namespace TypedStore

namespace FileSet

variable {ε α : Type} {files : FileSet} {region : Place → Prop} {disk other : Disk}
  {path source target data checksum : Path} {bytes : Bytes}

/-! ### Looking -/

theorem readIfPresent_congr (h : Disk.AgreeOn region disk other) (hpath : Disk.Covers region path) :
    readIfPresent path disk = readIfPresent path other := by
  rw [readIfPresent, readIfPresent, Disk.read_congr h hpath]

theorem verify_congr (h : Disk.AgreeOn region disk other) (hpath : Disk.Covers region checksum) :
    verify bytes data checksum disk = verify bytes data checksum other := by
  rw [verify, verify, Disk.read_congr h hpath]

theorem parseVerified_congr (h : Disk.AgreeOn region disk other)
    (hpath : Disk.Covers region checksum) :
    parseVerified bytes data checksum disk = parseVerified bytes data checksum other := by
  rw [parseVerified, parseVerified, verify_congr h hpath]

theorem countFrom_congr (h : Disk.AgreeOn region disk other) (hfiles : files.Inside region)
    (generation bound : Nat) :
    files.countFrom disk generation bound = files.countFrom other generation bound := by
  induction bound generalizing generation with
  | zero => rfl
  | succ bound ih =>
    rw [countFrom, countFrom, ih,
      Disk.contains_congr h (hfiles.covers (files.owns_data generation))]

/-! ### Changing files -/

/-- On disks that agree in the region the operation has the same outcome, and they agree in the region
    afterwards. -/
abbrev SeesOnly (region : Place → Prop) (op : Op ε Disk α) : Prop :=
  op.Uniform (fun _ => False) (Disk.AgreeOn region)

/-- With `False` for the failures that excuse, none has to be looked at where failures are handled. -/
theorem SeesOnly.attempt_bind {ε' β : Type} {x : Op ε Disk α} {f : Except ε α → Op ε' Disk β}
    (h : SeesOnly region x) (hf : ∀ result, SeesOnly region (f result)) :
    SeesOnly region (x.attempt >>= f) :=
  Op.Mirrors.attempt_bind h hf fun _ => False.elim

theorem writeFile_seesOnly (hpath : Disk.Covers region path) (bytes : Bytes) :
    SeesOnly region (writeFile path bytes) :=
  Op.mirrors_change fun _ _ h => (Disk.write_alike h hpath bytes).mapError _

theorem moveFile_seesOnly (hsource : Disk.Covers region source) (htarget : Disk.Covers region target) :
    SeesOnly region (moveFile source target) :=
  Op.mirrors_change fun _ _ h => (Disk.rename_alike h hsource htarget).mapError _

theorem discard_seesOnly (hpath : Disk.Covers region path) : SeesOnly region (discard path) := by
  have hremove : SeesOnly region (Op.change fun disk => disk.remove path : Op DiskFault Disk Unit) :=
    Op.mirrors_change fun _ _ h => Disk.remove_alike h hpath
  apply hremove.attempt_bind
  intro result
  split
  · exact Op.uniform_pure ()
  · exact Op.uniform_pure ()
  · exact Op.uniform_report _

/-- A failure that is passed on after a temporary file has been removed. -/
theorem discard_throw_seesOnly (hpath : Disk.Covers region path) (fault : StorageFault) :
    SeesOnly region (discard path >>= fun _ => throw fault : Op StorageFault Disk Unit) :=
  (discard_seesOnly hpath).bind fun _ => Op.uniform_throw fault

theorem moveIfPresent_seesOnly (hsource : Disk.Covers region source)
    (htarget : Disk.Covers region target) : SeesOnly region (moveIfPresent source target) := by
  apply Op.Mirrors.state_bind
  intro disk other h
  rw [Disk.contains_congr h hsource]
  split
  · exact moveFile_seesOnly hsource htarget
  · exact Op.uniform_pure ()

section Inside

variable (hfiles : files.Inside region)
include hfiles

theorem writeTemporary_seesOnly (hpath : files.Owns path) (bytes : Bytes) :
    SeesOnly region (writeTemporary path bytes) := by
  have hdraft := hfiles.covers hpath.temporary
  apply (writeFile_seesOnly hdraft bytes).attempt_bind
  rintro (fault | _)
  · exact discard_throw_seesOnly hdraft fault
  · exact Op.uniform_pure ()

theorem settle_seesOnly (hpath : files.Owns path) : SeesOnly region (settle path) := by
  have hdraft := hfiles.covers hpath.temporary
  apply (moveFile_seesOnly hdraft (hfiles.covers hpath)).attempt_bind
  rintro (fault | _)
  · exact discard_throw_seesOnly hdraft fault
  · exact Op.uniform_pure ()

theorem writeAtomic_seesOnly (hpath : files.Owns path) (bytes : Bytes) :
    SeesOnly region (writeAtomic path bytes) :=
  (writeTemporary_seesOnly hfiles hpath bytes).bind fun _ => settle_seesOnly hfiles hpath

theorem moveUpFrom_seesOnly (generation : Nat) : SeesOnly region (files.moveUpFrom generation) := by
  induction generation with
  | zero => exact Op.uniform_pure ()
  | succ generation ih =>
    apply (moveIfPresent_seesOnly (hfiles.covers (files.owns_data _))
      (hfiles.covers (files.owns_data _))).bind
    intro _
    apply (moveIfPresent_seesOnly (hfiles.covers (files.owns_checksum _))
      (hfiles.covers (files.owns_checksum _))).bind
    intro _
    exact ih

theorem rotate_seesOnly (keep : Nat) (committed : Option Bytes) :
    SeesOnly region (files.rotate keep committed) := by
  cases committed with
  | none => exact Op.uniform_pure ()
  | some previous =>
    rw [rotate]
    split
    · apply (moveUpFrom_seesOnly hfiles _).bind
      intro _
      apply (writeAtomic_seesOnly hfiles (files.owns_data 1) previous).bind
      intro _
      exact writeAtomic_seesOnly hfiles (files.owns_checksum 1) _
    · exact Op.uniform_pure ()

theorem putBack_seesOnly (committed : Option Bytes) : SeesOnly region (files.putBack committed) := by
  cases committed with
  | none =>
    have hremove : SeesOnly region (Op.change fun disk : Disk =>
        (disk.remove (files.data 0)).mapError StorageFault.disk) :=
      Op.mirrors_change fun _ _ h =>
        (Disk.remove_alike h (hfiles.covers (files.owns_data 0))).mapError _
    apply hremove.attempt_bind
    rintro (fault | _)
    · exact Op.uniform_report _
    · exact Op.uniform_pure ()
  | some previous =>
    apply (writeAtomic_seesOnly hfiles (files.owns_data 0) previous).attempt_bind
    rintro (fault | _)
    · exact Op.uniform_report _
    · exact Op.uniform_pure ()

theorem stage_seesOnly (bytes : Bytes) : SeesOnly region (files.stage bytes) := by
  apply (writeTemporary_seesOnly hfiles (files.owns_data 0) bytes).bind
  intro _
  apply (writeTemporary_seesOnly hfiles (files.owns_checksum 0) _).attempt_bind
  rintro (fault | _)
  · exact discard_throw_seesOnly (hfiles.covers (files.owns_data 0).temporary) fault
  · exact Op.uniform_pure ()

theorem install_seesOnly (keep : Nat) (committed : Option Bytes) :
    SeesOnly region (files.install keep committed) := by
  have hdata := files.owns_data 0
  have hmoved : SeesOnly region (files.rotate keep committed >>= fun _ =>
      moveFile (temporary (files.data 0)) (files.data 0)) :=
    (rotate_seesOnly hfiles keep committed).bind fun _ =>
      moveFile_seesOnly (hfiles.covers hdata.temporary) (hfiles.covers hdata)
  apply hmoved.attempt_bind
  rintro (fault | _)
  · apply (discard_seesOnly (hfiles.covers hdata.temporary)).bind
    intro _
    exact discard_throw_seesOnly (hfiles.covers (files.owns_checksum 0).temporary) fault
  · exact Op.uniform_pure ()

theorem finish_seesOnly (committed : Option Bytes) : SeesOnly region (files.finish committed) := by
  have hchecksum := files.owns_checksum 0
  apply (moveFile_seesOnly (hfiles.covers hchecksum.temporary)
    (hfiles.covers hchecksum)).attempt_bind
  rintro (fault | _)
  · apply (discard_seesOnly (hfiles.covers hchecksum.temporary)).bind
    intro _
    apply (putBack_seesOnly hfiles committed).bind
    intro _
    exact Op.uniform_throw fault
  · exact Op.uniform_pure ()

theorem commit_seesOnly (keep : Nat) (committed : Option Bytes) (bytes : Bytes) :
    SeesOnly region (files.commit keep committed bytes) := by
  apply (stage_seesOnly hfiles bytes).bind
  intro _
  apply (install_seesOnly hfiles keep committed).bind
  intro _
  apply (finish_seesOnly hfiles committed).bind
  intro _
  exact Op.uniform_report _

/-- Reading defaults only looks at files, so it keeps every relation in which they look the same. -/
theorem readDefaults_uniform {p : StorageFault → Prop} {r : Disk → Disk → Prop}
    (hr : ∀ disk other, r disk other → Disk.AgreeOn region disk other) :
    files.readDefaults.Uniform p r := by
  have hparsed : ∀ bytes, Op.Uniform p r (do
      let entries ← Op.ofExcept (parse bytes)
      Op.report (.readDefaults files.defaults entries.size)
      return some entries : Op StorageFault Disk (Option Json.RawObject)) := by
    intro bytes
    apply (Op.uniform_ofExcept _).bind
    intro entries
    apply (Op.uniform_report _).bind
    intro _
    exact Op.uniform_pure _
  apply (Op.mirrors_look fun _ _ h =>
    readIfPresent_congr (hr _ _ h) (hfiles.covers files.owns_defaults)).bind
  rintro (_ | bytes)
  · exact Op.uniform_pure none
  · have hchecksum := hfiles.covers files.owns_defaultsChecksum
    apply Op.Mirrors.state_bind
    intro disk other h
    rw [Disk.contains_congr (hr _ _ h) hchecksum]
    dsimp only
    split
    · exact (Op.mirrors_look fun _ _ h => verify_congr (hr _ _ h) hchecksum).bind
        fun _ => hparsed bytes
    · exact hparsed bytes

end Inside

end FileSet

namespace Archive

variable {files : FileSet} {region : Place → Prop}

/-- The disks agree in a region, and the directory is there. -/
def Standing (region : Place → Prop) (dir : Path) (disk other : Disk) : Prop :=
  Disk.AgreeOn region disk other ∧ disk.isDirectory dir

/-- Where the directory is there, making it does nothing. -/
theorem makeDirectories_uniform {p : StorageFault → Prop} (hfiles : files.Inside region) :
    ((Op.step fun disk => disk.makeDirectories files.dir).mapError StorageFault.disk).Uniform p
      (Standing region files.dir) := by
  refine Op.Mirrors.mapError (p := fun _ => False) (Op.mirrors_step ?_) fun _ => False.elim
  rintro disk other ⟨hagree, hdir⟩
  rw [Disk.makeDirectories_eq_self hdir,
    Disk.makeDirectories_eq_self ((hfiles.isDirectory_congr hagree).1 hdir)]
  exact ⟨rfl, hagree, hdir⟩

/-- What loading does once the directory is there. -/
def loadFound (files : FileSet) (options : ArchiveOptions) : Op StorageFault Disk Archive := do
  let committed ← Op.look (FileSet.readIfPresent (files.data 0))
  let entries ← match options.mode, committed with
    | .ignored, _ | .optional, none => pure SortedMap.empty
    | .required, none => throw (.dataMissing (files.data 0))
    | _, some bytes => Op.look (FileSet.parseVerified bytes (files.data 0) (files.checksum 0))
  Op.report (.openedFiles (files.data 0) files.id entries.size options.mode options.keep)
  return { files, keep := options.keep, entries, committed }

theorem load_eq {options : ArchiveOptions} (hkeep : options.keep ≠ 0) : load files options =
    (Op.step fun disk => disk.makeDirectories files.dir).mapError StorageFault.disk >>=
      fun _ => loadFound files options := by
  simp only [load, hkeep, ↓reduceIte]
  rfl

theorem load_of_keep_zero {options : ArchiveOptions} (hkeep : options.keep = 0) :
    load files options = throw .noGenerations := by
  simp only [load, hkeep, ↓reduceIte]
  rfl

/-- Once the directory is there only the data file and its checksum are looked at. -/
theorem loadFound_uniform_of {p : StorageFault → Prop} {r : Disk → Disk → Prop}
    (hread : ∀ disk other, r disk other → FileSet.readIfPresent (files.data 0) disk =
      FileSet.readIfPresent (files.data 0) other)
    (hparse : ∀ disk other, r disk other → ∀ bytes,
      FileSet.parseVerified bytes (files.data 0) (files.checksum 0) disk =
        FileSet.parseVerified bytes (files.data 0) (files.checksum 0) other)
    (options : ArchiveOptions) : (loadFound files options).Uniform p r := by
  have hopened : ∀ (committed : Option Bytes) (op : Op StorageFault Disk Json.RawObject),
      op.Uniform p r → Op.Uniform p r (op >>= fun entries =>
        (Op.report (.openedFiles (files.data 0) files.id entries.size options.mode options.keep) >>=
          fun _ => pure (⟨files, options.keep, entries, committed⟩ : Archive) :
            Op StorageFault Disk Archive)) := by
    intro committed op hop
    apply hop.bind
    intro entries
    apply (Op.uniform_report _).bind
    intro _
    exact Op.uniform_pure _
  apply (Op.mirrors_look hread).bind
  intro committed
  split
  · exact hopened _ _ (Op.uniform_pure _)
  · exact hopened _ _ (Op.uniform_pure _)
  · exact hopened _ _ (Op.uniform_throw _)
  · exact hopened _ _ (Op.mirrors_look fun disk other h => hparse disk other h _)

theorem loadFound_uniform {p : StorageFault → Prop} {r : Disk → Disk → Prop}
    (hfiles : files.Inside region)
    (hr : ∀ disk other, r disk other → Disk.AgreeOn region disk other) (options : ArchiveOptions) :
    (loadFound files options).Uniform p r :=
  loadFound_uniform_of
    (fun _ _ h => FileSet.readIfPresent_congr (hr _ _ h) (hfiles.covers (files.owns_data 0)))
    (fun _ _ h _ => FileSet.parseVerified_congr (hr _ _ h) (hfiles.covers (files.owns_checksum 0)))
    options

theorem after_loadFound (files : FileSet) (options : ArchiveOptions) (s : Journaled Disk) :
    ((loadFound files options).after s).state = s.state := by
  have huniform : (loadFound files options).Uniform (fun _ => False)
      fun x y => x = s.state ∧ y = s.state := by
    refine loadFound_uniform files.inside_everywhere ?_ options
    rintro x y ⟨rfl, rfl⟩
    exact .refl _ _
  rcases huniform s s ⟨rfl, rfl⟩ with ⟨_, _, hno⟩ | ⟨-, hafter, -⟩
  · exact hno.elim
  · exact hafter

theorem load_of_made {options : ArchiveOptions} {s : Journaled Disk} {made : Disk}
    (hkeep : options.keep ≠ 0) (hmake : s.state.makeDirectories files.dir = (.ok (), made)) :
    load files options s = loadFound files options ⟨made, s.events⟩ := by
  rw [load_eq hkeep]
  exact Op.bind_of_ok (Op.mapError_eq_ok_iff.2 (Op.step_eq_ok_iff.2 ⟨made, hmake, rfl⟩))

theorem load_of_not_made {options : ArchiveOptions} {s : Journaled Disk} {made : Disk}
    {fault : DiskFault} (hkeep : options.keep ≠ 0)
    (hmake : s.state.makeDirectories files.dir = (.error fault, made)) :
    load files options s = .error (.disk fault) ⟨made, s.events⟩ := by
  rw [load_eq hkeep]
  exact Op.bind_of_error (Op.mapError_of_error (by rw [Op.step, hmake]))

theorem after_load {options : ArchiveOptions} (files : FileSet) (hkeep : options.keep ≠ 0)
    (s : Journaled Disk) :
    ((load files options).after s).state = (s.state.makeDirectories files.dir).2 := by
  cases hmake : s.state.makeDirectories files.dir with
  | mk result made =>
    cases result with
    | error fault => rw [Op.after_of_error (load_of_not_made hkeep hmake)]
    | ok _ =>
      obtain ⟨-, hafter⟩ := Op.outcome_after_congr (load_of_made hkeep hmake)
      rw [hafter, after_loadFound]

/-- What loading comes to depends on what comes of making the directory. -/
theorem load_outcome_of_same_making {options : ArchiveOptions} {s t : Journaled Disk}
    (hkeep : options.keep ≠ 0)
    (hmake : s.state.makeDirectories files.dir = t.state.makeDirectories files.dir) :
    (load files options).outcome s = (load files options).outcome t := by
  cases hmade : t.state.makeDirectories files.dir with
  | mk result made =>
    rw [hmade] at hmake
    cases result with
    | error fault =>
      rw [Op.outcome_of_error (load_of_not_made hkeep hmake),
        Op.outcome_of_error (load_of_not_made hkeep hmade)]
    | ok _ =>
      obtain ⟨hs, -⟩ := Op.outcome_after_congr (load_of_made hkeep hmake)
      obtain ⟨ht, -⟩ := Op.outcome_after_congr (load_of_made hkeep hmade)
      have hsame : (loadFound files options).Uniform (fun _ => False) fun x y => x = y :=
        loadFound_uniform files.inside_everywhere (by rintro x _ rfl; exact .refl _ x) options
      rw [hs, ht]
      rcases hsame ⟨made, s.events⟩ ⟨made, t.events⟩ rfl with ⟨_, _, hno⟩ | ⟨houtcome, -⟩
      · exact hno.elim
      · exact houtcome

/-- Where the directory is there, loading comes to the same on disks with the same data file and
    checksum. -/
theorem load_outcome_congr {options : ArchiveOptions} {s t : Journaled Disk}
    (hs : s.state.isDirectory files.dir) (ht : t.state.isDirectory files.dir)
    (hdata : s.state.read (files.data 0) = t.state.read (files.data 0))
    (hchecksum : s.state.read (files.checksum 0) = t.state.read (files.checksum 0)) :
    (load files options).outcome s = (load files options).outcome t := by
  by_cases hkeep : options.keep = 0
  · rw [load_of_keep_zero hkeep]
    rfl
  have huniform : (loadFound files options).Uniform (fun _ => False)
      fun x y => x = s.state ∧ y = t.state := by
    refine loadFound_uniform_of ?_ ?_ options
    · rintro x y ⟨rfl, rfl⟩
      rw [FileSet.readIfPresent, FileSet.readIfPresent, hdata]
    · rintro x y ⟨rfl, rfl⟩ bytes
      rw [FileSet.parseVerified, FileSet.parseVerified, FileSet.verify, FileSet.verify, hchecksum]
  have hload : ∀ {u : Journaled Disk}, u.state.isDirectory files.dir →
      load files options u = loadFound files options u :=
    fun hu => load_of_made hkeep (Disk.makeDirectories_eq_self hu)
  obtain ⟨hloads, -⟩ := Op.outcome_after_congr (hload hs)
  obtain ⟨hloadt, -⟩ := Op.outcome_after_congr (hload ht)
  rw [hloads, hloadt]
  rcases huniform s t ⟨rfl, rfl⟩ with ⟨_, _, hno⟩ | ⟨houtcome, -⟩
  · exact hno.elim
  · exact houtcome

/-- But for the making of the directory loading only looks at files. -/
theorem load_uniform_of {p : StorageFault → Prop} {r : Disk → Disk → Prop}
    (hfiles : files.Inside region)
    (hr : ∀ disk other, r disk other → Disk.AgreeOn region disk other)
    (hmake : ((Op.step fun disk => disk.makeDirectories files.dir).mapError
      StorageFault.disk).Uniform p r) (options : ArchiveOptions) :
    (load files options).Uniform p r := by
  by_cases hkeep : options.keep = 0
  · rw [load_of_keep_zero hkeep]
    exact Op.uniform_throw _
  · rw [load_eq hkeep]
    exact hmake.bind fun _ => loadFound_uniform hfiles hr options

/-- Loading has the same outcome on disks that agree in the territory of the files. -/
theorem load_uniform {p : StorageFault → Prop} (hfiles : files.Inside region)
    (options : ArchiveOptions) : (load files options).Uniform p (Standing region files.dir) :=
  load_uniform_of hfiles (fun _ _ h => h.1) (makeDirectories_uniform hfiles) options

/-- What loading comes to depends on the disk only. -/
theorem load_same {p : StorageFault → Prop} (files : FileSet) (options : ArchiveOptions) :
    (load files options).Uniform p fun x y => x = y := by
  refine load_uniform_of files.inside_everywhere (by rintro x _ rfl; exact .refl _ x) ?_ options
  refine Op.Mirrors.mapError (p := fun _ => False) (Op.mirrors_step ?_) fun _ => False.elim
  rintro x _ rfl
  exact ⟨rfl, rfl⟩

end Archive

end TypedStore
