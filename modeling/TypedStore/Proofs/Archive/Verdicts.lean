/-
  TypedStore/Proofs/Archive/Verdicts.lean
  =======================================
  **Only verified bytes become live, and all verified bytes do.**

  What is made of a data file is a table: each state of its checksum file has one verdict, and only
  where the checksum is right does it matter whether the data is the text of an object (`Verdict`,
  `FileSet.parseVerified_eq_iff`). Opening and restoring a generation judge by the same table
  (`Opens`, `Restores`), and with it come to exactly one result each (`only_verified_becomes_live`).
-/
import TypedStore.Proofs.Archive.Agreement
import TypedStore.Proofs.Archive.FailedCalls
import TypedStore.Proofs.Archive.Locality
import TypedStore.Proofs.Codec.ObjectText

namespace TypedStore

open Json (RawObject RawText WritesObject)

theorem Checksum.length_eq_of_ofBigEndian? {sum : Bytes} :
    (ofBigEndian? sum).isSome ↔ sum.length = 4 := by
  constructor
  · intro h
    unfold ofBigEndian? at h
    split at h
    · rfl
    · cases h
  · intro h
    obtain ⟨a, b, c, d, rfl⟩ := List.length_eq_four.1 h
    rfl

/-! ### The table -/

/-- The bytes are the text of an object with these entries, of which the last one of a name counts. -/
def WritesEntriesOf (bytes : Bytes) (entries : RawObject) : Prop :=
  ∃ text list, bytes = Utf8.encodeChars text ∧ WritesObject text list ∧ entries = .ofList list

/-- What is made of data that has a checksum file beside it, or should have. -/
inductive Verdict (disk : Disk) (bytes : Bytes) (data checksum : Path) :
    Except StorageFault RawObject → Prop where
  | live {entries : RawObject} :
    disk.read checksum = .ok (Checksum.bigEndian (Checksum.crc32 bytes)) →
      WritesEntriesOf bytes entries → Verdict disk bytes data checksum (.ok entries)
  | notJson :
    disk.read checksum = .ok (Checksum.bigEndian (Checksum.crc32 bytes)) →
      (¬ ∃ entries, WritesEntriesOf bytes entries) →
      Verdict disk bytes data checksum (.error .notJson)
  | missing :
    disk.read checksum = .error .notFound →
      Verdict disk bytes data checksum (.error (.checksumMissing checksum))
  | length {sum : Bytes} :
    disk.read checksum = .ok sum → sum.length ≠ 4 →
      Verdict disk bytes data checksum (.error (.checksumLength checksum sum.length))
  | mismatch {stored : UInt32} :
    disk.read checksum = .ok (Checksum.bigEndian stored) → stored ≠ Checksum.crc32 bytes →
      Verdict disk bytes data checksum
        (.error (.checksumMismatch data stored (Checksum.crc32 bytes)))
  | unreadable {fault : DiskFault} :
    disk.read checksum = .error fault → fault ≠ .notFound →
      Verdict disk bytes data checksum (.error (.disk fault))

namespace FileSet

variable {disk : Disk} {bytes : Bytes} {data checksum : Path} {entries : RawObject}
  {result : Except StorageFault RawObject}

theorem parse_eq_ok_iff_writes : parse bytes = .ok entries ↔ WritesEntriesOf bytes entries :=
  parse_eq_ok_iff.trans RawObject.ofBytes?_eq_some_iff

theorem parse_of_not_writes (h : ¬ ∃ entries, WritesEntriesOf bytes entries) :
    parse bytes = .error .notJson := by
  cases hparse : RawObject.ofBytes? bytes with
  | none => rw [parse, hparse]; rfl
  | some entries => exact absurd ⟨entries, RawObject.ofBytes?_eq_some_iff.1 hparse⟩ h

theorem parseVerified_of_verdict (h : Verdict disk bytes data checksum result) :
    parseVerified bytes data checksum disk = result := by
  cases h with
  | live hsum hwrites =>
    exact parseVerified_eq_ok_iff.2 ⟨hsum, parse_eq_ok_iff_writes.2 hwrites⟩
  | notJson hsum hno =>
    rw [parseVerified, verify_eq_ok_iff.2 hsum]
    exact parse_of_not_writes hno
  | missing hmissing =>
    rw [parseVerified, verify, hmissing]
    rfl
  | @length sum hsum hlength =>
    have hnone : Checksum.ofBigEndian? sum = none := by
      rw [← Option.not_isSome_iff_eq_none, Checksum.length_eq_of_ofBigEndian?]
      exact hlength
    rw [parseVerified, verify, hsum]
    simp only [hnone]
    rfl
  | mismatch hsum hne =>
    rw [parseVerified, verify, hsum]
    simp only [Checksum.ofBigEndian?_bigEndian, if_neg hne]
    rfl
  | unreadable hfault hne =>
    rw [parseVerified, verify, hfault]
    split <;> simp_all [Except.bind]

/-- There is a verdict on any bytes. -/
theorem exists_verdict (disk : Disk) (bytes : Bytes) (data checksum : Path) :
    ∃ result, Verdict disk bytes data checksum result := by
  cases hread : disk.read checksum with
  | error fault =>
    by_cases hmissing : fault = .notFound
    · exact ⟨_, .missing (hmissing ▸ hread)⟩
    · exact ⟨_, .unreadable hread hmissing⟩
  | ok sum =>
    cases hstored : Checksum.ofBigEndian? sum with
    | none =>
      refine ⟨_, .length hread fun hlength => ?_⟩
      rw [← Checksum.length_eq_of_ofBigEndian?, hstored] at hlength
      cases hlength
    | some stored =>
      obtain rfl := Checksum.bigEndian_of_ofBigEndian? hstored
      by_cases hright : stored = Checksum.crc32 bytes
      · subst hright
        by_cases hwrites : ∃ entries, WritesEntriesOf bytes entries
        · obtain ⟨entries, hentries⟩ := hwrites
          exact ⟨_, .live hread hentries⟩
        · exact ⟨_, .notJson hread hwrites⟩
      · exact ⟨_, .mismatch hread hright⟩

/-- Data is taken for what the table says. -/
theorem parseVerified_eq_iff :
    parseVerified bytes data checksum disk = result ↔ Verdict disk bytes data checksum result := by
  constructor
  · rintro rfl
    obtain ⟨result, hresult⟩ := exists_verdict disk bytes data checksum
    rwa [parseVerified_of_verdict hresult]
  · exact parseVerified_of_verdict

/-- A checksum that is missing or not the one of the data is corruption, whatever the data is. -/
theorem exists_verdict_corruption_iff :
    (∃ fault, Verdict disk bytes data checksum (.error fault) ∧ fault.area = .corruption) ↔
      disk.read checksum = .error .notFound ∨
        ∃ sum, disk.read checksum = .ok sum ∧ sum ≠ Checksum.bigEndian (Checksum.crc32 bytes) := by
  constructor
  · rintro ⟨fault, h, harea⟩
    cases h with
    | notJson | unreadable => cases harea
    | missing hmissing => exact .inl hmissing
    | length hsum hlength =>
      refine .inr ⟨_, hsum, ?_⟩
      rintro rfl
      exact hlength rfl
    | mismatch hsum hne =>
      refine .inr ⟨_, hsum, ?_⟩
      intro heq
      exact hne (Checksum.bigEndian_inj heq)
  · rintro (hmissing | ⟨sum, hsum, hne⟩)
    · exact ⟨_, .missing hmissing, rfl⟩
    · by_cases hlength : sum.length = 4
      · obtain ⟨stored, hstored⟩ :=
          Option.isSome_iff_exists.1 (Checksum.length_eq_of_ofBigEndian?.2 hlength)
        obtain rfl := Checksum.bigEndian_of_ofBigEndian? hstored
        refine ⟨_, .mismatch hsum ?_, rfl⟩
        rintro rfl
        exact hne rfl
      · exact ⟨_, .length hsum hlength, rfl⟩

end FileSet

namespace Archive

/-! ### Opening -/

/-- What comes of opening files on a disk, and the disk afterwards. -/
inductive Opens (files : FileSet) (options : ArchiveOptions) (disk : Disk) :
    Except StorageFault RawObject → Disk → Prop where
  | noGenerations : options.keep = 0 → Opens files options disk (.error .noGenerations) disk
  | noDirectory {fault : DiskFault} {made : Disk} :
    options.keep ≠ 0 → disk.makeDirectories files.dir = (.error fault, made) →
      Opens files options disk (.error (.disk fault)) made
  | unreadable {fault : DiskFault} {made : Disk} :
    options.keep ≠ 0 → disk.makeDirectories files.dir = (.ok (), made) →
      made.read (files.data 0) = .error fault → fault ≠ .notFound →
      Opens files options disk (.error (.disk fault)) made
  | present {bytes : Bytes} {made : Disk} {result : Except StorageFault RawObject} :
    options.keep ≠ 0 → disk.makeDirectories files.dir = (.ok (), made) →
      made.read (files.data 0) = .ok bytes → options.mode ≠ .ignored →
      Verdict made bytes (files.data 0) (files.checksum 0) result →
      Opens files options disk result made
  | absent {made : Disk} :
    options.keep ≠ 0 → disk.makeDirectories files.dir = (.ok (), made) →
      made.read (files.data 0) = .error .notFound → options.mode = .optional →
      Opens files options disk (.ok .empty) made
  | required {made : Disk} :
    options.keep ≠ 0 → disk.makeDirectories files.dir = (.ok (), made) →
      made.read (files.data 0) = .error .notFound → options.mode = .required →
      Opens files options disk (.error (.dataMissing (files.data 0))) made
  /-- Whatever the data file and the checksum file hold. -/
  | ignored {made : Disk} :
    options.keep ≠ 0 → disk.makeDirectories files.dir = (.ok (), made) →
      made.read (files.data 0) = .error .notFound ∨ (∃ bytes, made.read (files.data 0) = .ok bytes) →
      options.mode = .ignored → Opens files options disk (.ok .empty) made

section Opening

variable {files : FileSet} {options : ArchiveOptions} {disk made : Disk} {events : List Event}
  {committed : Option Bytes} {result : Except StorageFault RawObject}

theorem loadFound_of_unreadable {fault : StorageFault}
    (h : FileSet.readIfPresent (files.data 0) made = .error fault) :
    loadFound files options ⟨made, events⟩ = .error fault ⟨made, events⟩ := by
  rw [loadFound]
  exact Op.bind_of_error (Op.look_of_error h)

/-- The entries that are opened, once it is known whether there is a data file. -/
def entriesFound (files : FileSet) (mode : LoadMode) (disk : Disk) (committed : Option Bytes) :
    Except StorageFault RawObject :=
  match mode, committed with
  | .ignored, _ | .optional, none => .ok .empty
  | .required, none => .error (.dataMissing (files.data 0))
  | _, some bytes => FileSet.parseVerified bytes (files.data 0) (files.checksum 0) disk

theorem outcome_loadFound (h : FileSet.readIfPresent (files.data 0) made = .ok committed) :
    ((loadFound files options).outcome ⟨made, events⟩).map (·.entries) =
      entriesFound files options.mode made committed := by
  obtain ⟨mode, keep⟩ := options
  -- Either the entries are there without looking again, or the bytes are verified and parsed.
  have hlook : ∀ (f : Disk → Except StorageFault RawObject),
      ((Op.look f >>= fun entries =>
        (Op.report (.openedFiles (files.data 0) files.id entries.size mode keep) >>= fun _ =>
          pure (⟨files, keep, entries, committed⟩ : Archive) :
            Op StorageFault Disk Archive)).outcome ⟨made, events⟩).map (·.entries) = f made := by
    intro f
    cases hf : f made with
    | error fault =>
      rw [Op.outcome_of_error (Op.bind_of_error (Op.look_of_error hf))]
      rfl
    | ok entries =>
      rw [Op.outcome, Op.bind_of_ok (Op.look_of_ok hf)]
      rfl
  rw [loadFound, Op.outcome, Op.bind_of_ok (Op.look_of_ok h)]
  cases mode with
  | ignored => rfl
  | optional =>
    cases committed with
    | none => rfl
    | some bytes => exact hlook _
  | required =>
    cases committed with
    | none => rfl
    | some bytes => exact hlook _

theorem load_of_opens {s : Journaled Disk} (h : Opens files options s.state result made) :
    ((load files options).outcome s).map (·.entries) = result ∧
      ((load files options).after s).state = made := by
  -- Once the directory has been made, the rest is said by what is found in it.
  have hfound : ∀ {made : Disk} {committed : Option Bytes}, options.keep ≠ 0 →
      s.state.makeDirectories files.dir = (.ok (), made) →
      FileSet.readIfPresent (files.data 0) made = .ok committed →
      ((load files options).outcome s).map (·.entries) =
          entriesFound files options.mode made committed ∧
        ((load files options).after s).state = made := by
    intro made committed hkeep hmake hread
    obtain ⟨houtcome, hafter⟩ := Op.outcome_after_congr (load_of_made hkeep hmake)
    rw [houtcome, hafter, after_loadFound, outcome_loadFound hread]
    exact ⟨rfl, rfl⟩
  cases h with
  | noGenerations hkeep =>
    rw [load_of_keep_zero hkeep]
    exact ⟨rfl, rfl⟩
  | noDirectory hkeep hmake =>
    have hload := load_of_not_made hkeep hmake
    rw [Op.outcome_of_error hload, Op.after_of_error hload]
    exact ⟨rfl, rfl⟩
  | @unreadable fault _ hkeep hmake hfault hne =>
    have hread := FileSet.readIfPresent_of_read_error hfault hne
    obtain ⟨houtcome, hafter⟩ := Op.outcome_after_congr (load_of_made hkeep hmake)
    rw [houtcome, hafter, after_loadFound, Op.outcome_of_error (loadFound_of_unreadable hread)]
    exact ⟨rfl, rfl⟩
  | present hkeep hmake hread hmode hverdict =>
    have hopen := hfound hkeep hmake (FileSet.readIfPresent_eq_some_iff.2 hread)
    rw [← FileSet.parseVerified_eq_iff.2 hverdict]
    cases hmode' : options.mode with
    | ignored => exact absurd hmode' hmode
    | optional | required =>
      rw [hmode'] at hopen
      exact hopen
  | absent hkeep hmake hread hmode =>
    have hopen := hfound hkeep hmake (FileSet.readIfPresent_eq_none_iff.2 hread)
    rwa [hmode] at hopen
  | required hkeep hmake hread hmode =>
    have hopen := hfound hkeep hmake (FileSet.readIfPresent_eq_none_iff.2 hread)
    rwa [hmode] at hopen
  | ignored hkeep hmake hread hmode =>
    rcases hread with hread | ⟨bytes, hread⟩
    · have hopen := hfound hkeep hmake (FileSet.readIfPresent_eq_none_iff.2 hread)
      rwa [hmode] at hopen
    · have hopen := hfound hkeep hmake (FileSet.readIfPresent_eq_some_iff.2 hread)
      rwa [hmode] at hopen

/-- Opening comes to something on every disk. -/
theorem exists_opens (files : FileSet) (options : ArchiveOptions) (disk : Disk) :
    ∃ result made, Opens files options disk result made := by
  by_cases hkeep : options.keep = 0
  · exact ⟨_, _, .noGenerations hkeep⟩
  cases hmake : disk.makeDirectories files.dir with
  | mk made? made =>
    cases made? with
    | error fault => exact ⟨_, _, .noDirectory hkeep hmake⟩
    | ok u =>
      cases hread : made.read (files.data 0) with
      | error fault =>
        by_cases hmissing : fault = .notFound
        · subst hmissing
          cases hmode : options.mode with
          | ignored => exact ⟨_, _, .ignored hkeep hmake (.inl hread) hmode⟩
          | optional => exact ⟨_, _, .absent hkeep hmake hread hmode⟩
          | required => exact ⟨_, _, .required hkeep hmake hread hmode⟩
        · exact ⟨_, _, .unreadable hkeep hmake hread hmissing⟩
      | ok bytes =>
        by_cases hmode : options.mode = .ignored
        · exact ⟨_, _, .ignored hkeep hmake (.inr ⟨bytes, hread⟩) hmode⟩
        · obtain ⟨result, hverdict⟩ :=
            FileSet.exists_verdict made bytes (files.data 0) (files.checksum 0)
          exact ⟨result, made, .present hkeep hmake hread hmode hverdict⟩

theorem load_iff_opens {s : Journaled Disk} :
    ((load files options).outcome s).map (·.entries) = result ∧
        ((load files options).after s).state = made ↔ Opens files options s.state result made := by
  constructor
  · rintro ⟨rfl, rfl⟩
    obtain ⟨result, made, h⟩ := exists_opens files options s.state
    obtain ⟨houtcome, hafter⟩ := load_of_opens h
    rwa [houtcome, hafter]
  · exact load_of_opens

end Opening

/-! ### Restoring -/

/-- What comes of restoring a generation, and the archive and its disk afterwards. -/
inductive Restores (s : Journaled Mounted) (generation : Nat) :
    Except StorageFault Unit → Mounted → Prop where
  | unreadable {fault : DiskFault} :
    s.state.disk.read (s.state.archive.files.data generation) = .error fault →
      Restores s generation (.error (.disk fault)) s.state
  | refused {bytes : Bytes} {fault : StorageFault} :
    s.state.disk.read (s.state.archive.files.data generation) = .ok bytes →
      Verdict s.state.disk bytes (s.state.archive.files.data generation)
        (s.state.archive.files.checksum generation) (.error fault) →
      Restores s generation (.error fault) s.state
  | restored {bytes : Bytes} {entries : RawObject} {t : Journaled Disk} :
    s.state.disk.read (s.state.archive.files.data generation) = .ok bytes →
      Verdict s.state.disk bytes (s.state.archive.files.data generation)
        (s.state.archive.files.checksum generation) (.ok entries) →
      s.state.archive.files.commit s.state.archive.keep s.state.archive.committed entries.toBytes
        ⟨s.state.disk, s.events⟩ = .ok () t →
      Restores s generation (.ok ())
        ⟨t.state, { s.state.archive with
          entries := entries, committed := some entries.toBytes }⟩
  /-- The files cannot be written; what is live stays. -/
  | failed {bytes : Bytes} {entries : RawObject} {t : Journaled Disk} {fault : StorageFault} :
    s.state.disk.read (s.state.archive.files.data generation) = .ok bytes →
      Verdict s.state.disk bytes (s.state.archive.files.data generation)
        (s.state.archive.files.checksum generation) (.ok entries) →
      s.state.archive.files.commit s.state.archive.keep s.state.archive.committed entries.toBytes
        ⟨s.state.disk, s.events⟩ = .error fault t →
      Restores s generation (.error fault) ⟨t.state, s.state.archive⟩

section Restoring

variable {s : Journaled Mounted} {generation : Nat} {result : Except StorageFault Unit}
  {next : Mounted}

theorem restore_of_restores (h : Restores s generation result next) :
    (restore generation).outcome s = result ∧ ((restore generation).after s).state = next := by
  cases h with
  | @unreadable fault hread =>
    have hrestore : restore generation s = .error (.disk fault) s := by
      rw [restore, Op.bind_of_ok (Op.state_apply s)]
      exact Op.bind_of_error (Op.look_of_error (by rw [hread]; rfl))
    rw [Op.outcome_of_error hrestore, Op.after_of_error hrestore]
    exact ⟨rfl, rfl⟩
  | refused hread hverdict =>
    have hrestore : restore generation s = .error _ s :=
      restore_of_refused hread (FileSet.parseVerified_eq_iff.2 hverdict)
    rw [Op.outcome_of_error hrestore, Op.after_of_error hrestore]
    exact ⟨rfl, rfl⟩
  | @restored bytes entries t hread hverdict hcommit =>
    have hreplace := replace_eq_ok_iff (u := ()).2 ⟨t, hcommit, rfl⟩
    have hrestore := restore_of_sound hread (FileSet.parseVerified_eq_iff.2 hverdict)
    rw [Op.bind_of_ok hreplace] at hrestore
    obtain ⟨houtcome, hafter⟩ := Op.outcome_after_congr hrestore
    rw [houtcome, hafter]
    exact ⟨rfl, rfl⟩
  | failed hread hverdict hcommit =>
    have hrestore := restore_of_sound hread (FileSet.parseVerified_eq_iff.2 hverdict)
    rw [Op.bind_of_error (replace_eq_error_iff.2 ⟨_, hcommit, rfl⟩)] at hrestore
    rw [Op.outcome_of_error hrestore, Op.after_of_error hrestore]
    exact ⟨rfl, rfl⟩

/-- A restore comes to something in every state. -/
theorem exists_restores (s : Journaled Mounted) (generation : Nat) :
    ∃ result next, Restores s generation result next := by
  cases hread : s.state.disk.read (s.state.archive.files.data generation) with
  | error fault => exact ⟨_, _, .unreadable hread⟩
  | ok bytes =>
    obtain ⟨verdict, hverdict⟩ := FileSet.exists_verdict s.state.disk bytes
      (s.state.archive.files.data generation) (s.state.archive.files.checksum generation)
    cases verdict with
    | error fault => exact ⟨_, _, .refused hread hverdict⟩
    | ok entries =>
      cases hcommit : s.state.archive.files.commit s.state.archive.keep s.state.archive.committed
          entries.toBytes ⟨s.state.disk, s.events⟩ with
      | ok u t => exact ⟨_, _, .restored hread hverdict hcommit⟩
      | error fault t => exact ⟨_, _, .failed hread hverdict hcommit⟩

theorem restore_iff_restores :
    (restore generation).outcome s = result ∧ ((restore generation).after s).state = next ↔
      Restores s generation result next := by
  constructor
  · rintro ⟨rfl, rfl⟩
    obtain ⟨result, next, h⟩ := exists_restores s generation
    obtain ⟨houtcome, hafter⟩ := restore_of_restores h
    rwa [houtcome, hafter]
  · exact restore_of_restores

end Restoring

/-- A data file that is there is opened as some entries if and only if it verifies and writes them. -/
theorem load_of_present_iff {files : FileSet} {options : ArchiveOptions} {s : Journaled Disk}
    {bytes : Bytes} {entries : RawObject} (hkeep : options.keep ≠ 0)
    (hmode : options.mode ≠ .ignored) (hread : s.state.read (files.data 0) = .ok bytes) :
    ((load files options).outcome s).map (·.entries) = .ok entries ↔
      s.state.read (files.checksum 0) = .ok (Checksum.bigEndian (Checksum.crc32 bytes)) ∧
        WritesEntriesOf bytes entries := by
  have hmake := Disk.makeDirectories_eq_self (isDirectory_of_read hread)
  obtain ⟨result, hverdict⟩ :=
    FileSet.exists_verdict s.state bytes (files.data 0) (files.checksum 0)
  obtain ⟨houtcome, -⟩ := load_of_opens (.present hkeep hmake hread hmode hverdict)
  rw [houtcome]
  constructor
  · rintro rfl
    cases hverdict with
    | live hsum hwrites => exact ⟨hsum, hwrites⟩
  · rintro ⟨hsum, hwrites⟩
    rw [← FileSet.parseVerified_of_verdict hverdict]
    exact FileSet.parseVerified_of_verdict (.live hsum hwrites)

/-- Opening comes to what `Opens` says and restoring to what `Restores` says, with one table for what is
    made of the data. A data file that is there becomes live if and only if the checksum beside it is the
    one of its bytes and these write an object; and a checksum that is missing, or any other, is
    corruption whatever the data is. -/
theorem only_verified_becomes_live :
    (∀ files options (s : Journaled Disk) result made,
      ((load files options).outcome s).map (·.entries) = result ∧
          ((load files options).after s).state = made ↔
        Opens files options s.state result made) ∧
      (∀ (s : Journaled Mounted) generation result next,
        (restore generation).outcome s = result ∧ ((restore generation).after s).state = next ↔
          Restores s generation result next) ∧
      (∀ (files : FileSet) (options : ArchiveOptions) (s : Journaled Disk) (bytes : Bytes) entries,
        options.keep ≠ 0 → options.mode ≠ .ignored → s.state.read (files.data 0) = .ok bytes →
          (((load files options).outcome s).map (·.entries) = .ok entries ↔
            s.state.read (files.checksum 0) = .ok (Checksum.bigEndian (Checksum.crc32 bytes)) ∧
              WritesEntriesOf bytes entries)) ∧
      ∀ (disk : Disk) (bytes : Bytes) data checksum,
        (∃ fault, Verdict disk bytes data checksum (.error fault) ∧ fault.area = .corruption) ↔
          disk.read checksum = .error .notFound ∨
            ∃ sum, disk.read checksum = .ok sum ∧
              sum ≠ Checksum.bigEndian (Checksum.crc32 bytes) :=
  ⟨fun _ _ _ _ _ => load_iff_opens, fun _ _ _ _ => restore_iff_restores,
    fun _ _ _ _ _ => load_of_present_iff, fun _ _ _ _ => FileSet.exists_verdict_corruption_iff⟩

/-- A data file with blanks in it and with a name twice, its checksum, and a generation of which the
    checksum has three bytes. -/
theorem only_verified_becomes_live_tampered :
    let files : FileSet := ⟨["d"], 3⟩
    let bytes := Utf8.encode " \x7b \"a\":1, \"a\" : [2 ] \x7d\n"
    let disk : Disk := ((((Disk.empty.set ["d"] .directory).set ["d", "kvs_3_0.json"] (.file bytes)).set
      ["d", "kvs_3_0.hash"] (.file (Checksum.bigEndian (Checksum.crc32 bytes)))).set
      ["d", "kvs_3_1.json"] (.file bytes)).set ["d", "kvs_3_1.hash"] (.file [0, 0, 0])
    let entries : RawObject := SortedMap.empty.insert "a" ⟨"[2 ]".toList, by decide, by decide⟩
    let s : Journaled Mounted := ⟨⟨disk, ⟨files, 2, entries, some bytes⟩⟩, []⟩
    disk.read (files.data 0) = .ok bytes ∧
      disk.read (files.checksum 0) = .ok (Checksum.bigEndian (Checksum.crc32 bytes)) ∧
      WritesEntriesOf bytes entries ∧
      Verdict disk bytes (files.data 1) (files.checksum 1)
        (.error (.checksumLength (files.checksum 1) 3)) ∧
      (restore 1).outcome s = .error (.checksumLength (files.checksum 1) 3) ∧
      ((restore 1).after s).state = s.state := by
  intro files bytes disk entries s
  obtain ⟨-, hrestore, hpresent, -⟩ := only_verified_becomes_live
  have hread : disk.read (files.data 0) = .ok bytes := by decide +kernel
  have hload : ((load files ⟨.required, 3⟩).outcome ⟨disk, []⟩).map (·.entries) = .ok entries := by
    decide +kernel
  obtain ⟨hsum, hwrites⟩ :=
    (hpresent files ⟨.required, 3⟩ ⟨disk, []⟩ bytes entries (by decide) (by decide) hread).1 hload
  have hgeneration : disk.read (files.data 1) = .ok bytes := by decide +kernel
  have hshort : disk.read (files.checksum 1) = .ok [0, 0, 0] := by decide +kernel
  have hverdict : Verdict disk bytes (files.data 1) (files.checksum 1)
      (.error (.checksumLength (files.checksum 1) 3)) := .length hshort (by decide)
  obtain ⟨houtcome, hafter⟩ := (hrestore s 1 _ _).2 (.refused hgeneration hverdict)
  exact ⟨hread, hsum, hwrites, hverdict, houtcome, hafter⟩

end Archive

end TypedStore
