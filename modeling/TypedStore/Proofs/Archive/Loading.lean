/-
  TypedStore/Proofs/Archive/Loading.lean
  ======================================
  **What is loaded.**

  A data file is loaded only if the checksum file beside it is exactly the one that a commit writes
  for its bytes (`parseVerified_eq_ok_iff`). Loading succeeds if and only if the directories can be
  made, the data file can be read or is not there, and what is there is allowed by the mode
  (`load_eq_ok_iff`).
-/
import TypedStore.Proofs.Archive.Calls

namespace TypedStore

/-! ### Checksums -/

theorem Checksum.bigEndian_of_ofBigEndian? {sum : Bytes} {w : UInt32}
    (h : ofBigEndian? sum = some w) : bigEndian w = sum := by
  unfold ofBigEndian? at h
  split at h
  · next a b c d =>
    obtain rfl := Option.some.inj h
    have ha := a.toNat_lt
    have hb := b.toNat_lt
    have hc := c.toNat_lt
    have hd := d.toNat_lt
    have hsum : (UInt32.ofNat (a.toNat * 0x1000000 + b.toNat * 0x10000 + c.toNat * 0x100 +
        d.toNat)).toNat = a.toNat * 0x1000000 + b.toNat * 0x10000 + c.toNat * 0x100 + d.toNat := by
      rw [UInt32.toNat_ofNat']
      omega
    have hbyte : ∀ {n : Nat} {x : UInt8}, n % 256 = x.toNat → UInt8.ofNat n = x := by
      intro n x hn
      apply UInt8.toNat_inj.1
      rw [UInt8.toNat_ofNat', hn]
    rw [bigEndian, hsum, hbyte (x := a) (by omega), hbyte (x := b) (by omega),
      hbyte (x := c) (by omega), hbyte (x := d) (by omega)]
  · cases h

namespace FileSet

variable {files : FileSet} {disk : Disk} {bytes : Bytes} {entries : Json.RawObject}
  {data checksum path : Path}

theorem verify_eq_ok_iff :
    verify bytes data checksum disk = .ok () ↔
      disk.read checksum = .ok (Checksum.fileFor bytes) := by
  unfold verify
  cases hread : disk.read checksum with
  | error fault => cases fault <;> simp
  | ok sum =>
    cases hsum : Checksum.ofBigEndian? sum with
    | none =>
      have hne : sum ≠ Checksum.fileFor bytes := by
        rintro rfl
        rw [ofBigEndian?_fileFor] at hsum
        cases hsum
      simp [hsum, hne]
    | some stored =>
      by_cases heq : stored = Checksum.crc32 bytes
      · subst heq
        have hfile : sum = Checksum.fileFor bytes :=
          (Checksum.bigEndian_of_ofBigEndian? hsum).symm
        simp only [hsum, ↓reduceIte, true_iff]
        rw [hfile]
      · have hne : sum ≠ Checksum.fileFor bytes := by
          rintro rfl
          rw [ofBigEndian?_fileFor] at hsum
          exact heq (Option.some.inj hsum).symm
        simp [hsum, heq, hne]

theorem parse_eq_ok_iff : parse bytes = .ok entries ↔ Json.RawObject.ofBytes? bytes = some entries := by
  unfold parse
  cases Json.RawObject.ofBytes? bytes <;> simp

/-- The bytes of a map are parsed as that map. -/
theorem parse_toBytes (entries : Json.RawObject) : parse entries.toBytes = .ok entries :=
  parse_eq_ok_iff.2 (Json.RawObject.ofBytes?_toBytes entries)

theorem parseVerified_eq_ok_iff :
    parseVerified bytes data checksum disk = .ok entries ↔
      disk.read checksum = .ok (Checksum.fileFor bytes) ∧ parse bytes = .ok entries := by
  have hverify : verify bytes data checksum disk = .ok () ↔ _ := verify_eq_ok_iff
  rw [← hverify, parseVerified]
  cases verify bytes data checksum disk with
  | error fault => simp [Except.bind]
  | ok u => simp [Except.bind]

theorem readIfPresent_eq_some_iff :
    readIfPresent path disk = .ok (some bytes) ↔ disk.read path = .ok bytes := by
  unfold readIfPresent
  split <;> simp_all

theorem readIfPresent_eq_none_iff :
    readIfPresent path disk = .ok none ↔ disk.read path = .error .notFound := by
  unfold readIfPresent
  split <;> simp_all

theorem readIfPresent_of_read_error {fault : DiskFault} (h : disk.read path = .error fault)
    (hne : fault ≠ .notFound) : readIfPresent path disk = .error (.disk fault) := by
  rw [readIfPresent, h]
  split
  · next heq => cases heq
  · next heq => exact absurd (Except.error.inj heq) hne
  · next heq => rw [Except.error.inj heq]

/-- What loading makes of a data file, or of there being none. -/
def Loads (files : FileSet) (disk : Disk) (mode : LoadMode) (committed : Option Bytes)
    (entries : Json.RawObject) : Prop :=
  match mode, committed with
  | .ignored, _ | .optional, none => entries = .empty
  | .required, none => False
  | _, some bytes =>
    parseVerified bytes (files.data 0) (files.checksum 0) disk = .ok entries

end FileSet

namespace Archive

variable {files : FileSet} {options : ArchiveOptions} {s t : Journaled Disk} {archive : Archive}

/-- The end of loading, once there are entries: a report and the archive. -/
theorem opened_eq_ok_iff {mode : LoadMode} {keep : Nat} {op : Op StorageFault Disk Json.RawObject}
    {committed : Option Bytes} {p : Json.RawObject → Prop}
    (hop : ∀ entries r, op s = .ok entries r ↔ p entries ∧ r = s) :
    (op >>= fun entries =>
      (Op.report (.openedFiles (files.data 0) files.id entries.size mode keep) >>= fun _ =>
        pure (⟨files, keep, entries, committed⟩ : Archive) : Op StorageFault Disk Archive)) s =
        .ok archive t ↔
      ∃ entries, p entries ∧ archive = ⟨files, keep, entries, committed⟩ ∧
        t = ⟨s.state, s.events ++
          [.openedFiles (files.data 0) files.id entries.size mode keep]⟩ := by
  rw [Op.bind_eq_ok_iff]
  constructor
  · rintro ⟨entries, r, hentries, hrest⟩
    obtain ⟨hp, rfl⟩ := (hop entries r).1 hentries
    cases hrest
    exact ⟨entries, hp, rfl, rfl⟩
  · rintro ⟨entries, hp, rfl, rfl⟩
    exact ⟨entries, s, (hop entries s).2 ⟨hp, rfl⟩, rfl⟩

theorem pure_empty_eq_ok_iff (entries : Json.RawObject) (r : Journaled Disk) :
    (pure SortedMap.empty : Op StorageFault Disk Json.RawObject) s = .ok entries r ↔
      entries = SortedMap.empty ∧ r = s := by
  rw [Op.pure_apply, EStateM.Result.ok.injEq, eq_comm, eq_comm (a := s)]

theorem load_eq_ok_iff :
    load files options s = .ok archive t ↔
      ∃ disk committed entries, options.keep ≠ 0 ∧
        s.state.makeDirectories files.dir = (.ok (), disk) ∧
        FileSet.readIfPresent (files.data 0) disk = .ok committed ∧
        files.Loads disk options.mode committed entries ∧
        archive = ⟨files, options.keep, entries, committed⟩ ∧
        t = ⟨disk, s.events ++
          [.openedFiles (files.data 0) files.id entries.size options.mode options.keep]⟩ := by
  obtain ⟨mode, keep⟩ := options
  unfold load
  by_cases hkeep : keep = 0
  · constructor
    · intro h
      simp only [hkeep, ↓reduceIte, Op.bind_eq_ok_iff] at h
      obtain ⟨_, _, hthrow, -⟩ := h
      cases hthrow
    · rintro ⟨_, _, _, hne, -⟩
      exact absurd hkeep hne
  simp only [hkeep, ↓reduceIte]
  rw [Op.bind_eq_ok_iff]
  simp only [Op.mapError_eq_ok_iff, Op.step_eq_ok_iff]
  constructor
  · rintro ⟨_, _, ⟨disk, hmake, rfl⟩, hrest⟩
    obtain ⟨committed, _, hlook, hrest⟩ := Op.bind_eq_ok_iff.1 hrest
    obtain ⟨hread, rfl⟩ := Op.look_eq_ok_iff.1 hlook
    have hentries : ∃ entries, files.Loads disk mode committed entries ∧
        archive = ⟨files, keep, entries, committed⟩ ∧ t = ⟨disk, s.events ++
          [.openedFiles (files.data 0) files.id entries.size mode keep]⟩ := by
      cases mode with
      | ignored => exact (opened_eq_ok_iff pure_empty_eq_ok_iff).1 hrest
      | optional =>
        cases committed with
        | none => exact (opened_eq_ok_iff pure_empty_eq_ok_iff).1 hrest
        | some bytes => exact (opened_eq_ok_iff fun _ _ => Op.look_eq_ok_iff).1 hrest
      | required =>
        cases committed with
        | none => cases hrest
        | some bytes => exact (opened_eq_ok_iff fun _ _ => Op.look_eq_ok_iff).1 hrest
    obtain ⟨entries, hloads, harchive, ht⟩ := hentries
    exact ⟨disk, committed, entries, hkeep, hmake, hread, hloads, harchive, ht⟩
  · rintro ⟨disk, committed, entries, -, hmake, hread, hloads, harchive, ht⟩
    refine ⟨(), _, ⟨disk, hmake, rfl⟩, ?_⟩
    refine Op.bind_eq_ok_iff.2 ⟨committed, _, Op.look_eq_ok_iff.2 ⟨hread, rfl⟩, ?_⟩
    cases mode with
    | ignored => exact (opened_eq_ok_iff pure_empty_eq_ok_iff).2 ⟨entries, hloads, harchive, ht⟩
    | optional =>
      cases committed with
      | none => exact (opened_eq_ok_iff pure_empty_eq_ok_iff).2 ⟨entries, hloads, harchive, ht⟩
      | some bytes =>
        exact (opened_eq_ok_iff fun _ _ => Op.look_eq_ok_iff).2 ⟨entries, hloads, harchive, ht⟩
    | required =>
      cases committed with
      | none => cases hloads
      | some bytes =>
        exact (opened_eq_ok_iff fun _ _ => Op.look_eq_ok_iff).2 ⟨entries, hloads, harchive, ht⟩

end Archive

end TypedStore
