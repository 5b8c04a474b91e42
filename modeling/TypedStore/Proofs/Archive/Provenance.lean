/-
  TypedStore/Proofs/Archive/Provenance.lean
  =========================================
  **Where bytes come from that verify.**

  A directory holds a pair of files of a store, whatever is in them. After any run, bytes that verify
  have been committed in it, or they are those of the data file, which has verified from the start or
  has been opened without being read (`OpenArchives.provenance`).

  In the last case it need not have verified: an archive opened in this way takes the data file for
  committed, and the next commit makes it generation one and writes a checksum for it
  (`OpenArchives.Contained.commits_found`).
-/
import TypedStore.Proofs.Archive.History
import TypedStore.Proofs.Archive.Sessions

namespace TypedStore

namespace FileSet

variable {files : FileSet} {disk : Disk} {s t : Journaled Disk} {data sum bytes previous : Bytes}
  {keep : Nat} {u : Unit}

/-- There are no files of the store but a pair of generation zero. -/
def OnlyCurrent (files : FileSet) (disk : Disk) : Prop :=
  ∀ slot, files.held disk slot ≠ none → slot = ⟨.data, 0, false⟩ ∨ slot = ⟨.checksum, 0, false⟩

/-- A pair that has been written to an empty directory. -/
theorem onlyCurrent_of_pair (h : disk.below files.dir.place = []) (data sum : Bytes) :
    files.OnlyCurrent ((disk.set (files.slotPlace ⟨.data, 0, false⟩) (.file data)).set
      (files.slotPlace ⟨.checksum, 0, false⟩) (.file sum)) := by
  intro slot hslot
  rw [held_set, held_set, held_of_below_eq_nil h] at hslot
  by_cases hchecksum : slot = ⟨.checksum, 0, false⟩
  · exact .inr hchecksum
  by_cases hdata : slot = ⟨.data, 0, false⟩
  · exact .inl hdata
  · rw [if_neg hchecksum, if_neg hdata] at hslot
    exact absurd rfl hslot

theorem holdsOnly_of_onlyCurrent (honly : files.OnlyCurrent disk)
    (hdata : disk.read (files.data 0) = .ok data) (hsum : disk.read (files.checksum 0) = .ok sum) :
    files.HoldsOnly (· = data) disk := by
  rw [data_eq, read_slot_eq_ok_iff] at hdata
  rw [checksum_eq, read_slot_eq_ok_iff] at hsum
  refine ⟨⟨fun _ => rfl, ?_, ?_⟩, ?_⟩
  · intro slot hslot
    rcases honly slot (by rw [hslot]; simp) with rfl | rfl
    · rw [hdata.2] at hslot
      cases hslot
    · rw [hsum.2] at hslot
      cases hslot
  · intro slot hslot
    rcases honly slot hslot with rfl | rfl
    · exact hdata.1
    · exact hsum.1
  · intro generation draft bytes hbytes
    rcases honly _ (by rw [hbytes]; simp) with heq | heq
    · rw [heq, hdata.2] at hbytes
      cases hbytes
      rfl
    · cases heq

/-- A commit makes what has been committed last a pair that verifies, for it writes the checksum
    anew. -/
theorem commit_previous {view : Contents} (h : files.Holds s.state view) (hkeep : 2 ≤ keep)
    (hcommit : commit files keep (some previous) bytes s = .ok u t) :
    t.state.read (files.data 1) = .ok previous ∧
      t.state.read (files.checksum 1) = .ok (Checksum.fileFor previous) := by
  obtain ⟨hholds, -⟩ := commit_holds h hcommit
  have hread : ∀ part found, view.commit keep (some previous) bytes ⟨part, 1, false⟩ =
      some (.file found) → t.state.read (files.slotPath ⟨part, 1, false⟩) = .ok found := by
    intro part found hfound
    refine read_slot_eq_ok_iff.2 ⟨hholds.reached _ ?_, (hholds.held_eq _).trans hfound⟩
    rw [hfound]
    simp
  constructor
  · apply hread .data
    simp [Contents.commit, Contents.rotate, hkeep, Contents.writeAtomic, Contents.put]
  · apply hread .checksum
    simp [Contents.commit, Contents.rotate, hkeep, Contents.writeAtomic, Contents.put]

end FileSet

namespace Archive

/-- A data file that has been read verifies. -/
theorem verifies_of_load {files : FileSet} {options : ArchiveOptions} {d opened : Journaled Disk}
    {archive : Archive} {data : Bytes} (h : load files options d = .ok archive opened)
    (hmode : options.mode ≠ .ignored) (hdata : opened.state.read (files.data 0) = .ok data) :
    opened.state.read (files.checksum 0) = .ok (Checksum.fileFor data) := by
  have hfiles : archive.files = files := by
    obtain ⟨_, _, _, -, -, -, -, rfl, -⟩ := load_eq_ok_iff.1 h
    rfl
  have hstep := inStep_of_load h hmode
  rw [Mounted.InStep, hfiles] at hstep
  cases hcommitted : archive.committed with
  | none =>
    rw [hcommitted] at hstep
    have hnone := FileSet.readIfPresent_eq_none_iff.1 hstep.2
    rw [hdata] at hnone
    cases hnone
  | some bytes =>
    rw [hcommitted] at hstep
    obtain ⟨hread, -, hchecksum⟩ := hstep
    rw [hdata] at hread
    cases hread
    exact hchecksum

namespace OpenArchives

variable {ι : Type} {files : FileSet} {start o : OpenArchives ι} {data sum bytes : Bytes}

/-! ### What is found in a directory -/

theorem contained_found (hclosed : ∀ i, start.archives i = none)
    (hdata : start.disk.read (files.data 0) = .ok data)
    (hsum : start.disk.read (files.checksum 0) = .ok sum) (honly : files.OnlyCurrent start.disk) :
    Contained files (· = data) start := by
  refine ⟨isDirectory_of_read hdata, FileSet.holdsOnly_of_onlyCurrent honly hdata hsum, ?_⟩
  intro i archive hopen
  rw [hclosed] at hopen
  cases hopen

/-- The next commit of an archive makes the bytes that it has found in the data file a generation
    that verifies, whatever checksum there was for them. -/
theorem Contained.commits_found {p : Bytes → Prop} {i : ι} {archive : Archive} {c : Call}
    {events : List Event} {t : Journaled Mounted} {u : Unit} (ho : Contained files p o)
    (hopen : o.archives i = some archive) (hkeep : 2 ≤ archive.keep)
    (hfound : archive.committed = some data) (hidles : ¬ c.Idles ⟨o.disk, archive⟩)
    (hcall : c.perform ⟨⟨o.disk, archive⟩, events⟩ = .ok u t) :
    t.state.disk.read (files.data 1) = .ok data ∧
      FileSet.verify data (files.data 1) (files.checksum 1) t.state.disk = .ok () := by
  obtain ⟨entries, r, -, hcommit, ht⟩ := Call.commit_of_perform hidles hcall
  obtain ⟨hfiles, -⟩ := ho.archives i archive hopen
  simp only [hfiles, hfound] at hcommit
  rw [ht, FileSet.verify_eq_ok_iff]
  exact FileSet.commit_previous (s := ⟨o.disk, events⟩) ho.disk.holds hkeep hcommit

variable [DecidableEq ι] {deeds : List Deed}

/-! ### Files that do not verify -/

/-- As long as files that do not verify are opened only to be read, none is opened at all and nothing
    changes. -/
theorem Run.untouched (h : Run files start deeds o) (hclosed : ∀ i, start.archives i = none)
    (hdata : start.disk.read (files.data 0) = .ok data)
    (hsum : start.disk.read (files.checksum 0) ≠ .ok (Checksum.fileFor data))
    (hopened : ∀ options, Deed.opened options ∈ deeds → options.mode ≠ .ignored) :
    o.disk = start.disk ∧ ∀ i, o.archives i = none := by
  induction h with
  | start => exact ⟨rfl, hclosed⟩
  | @step deeds fresh o next _ hstep ih =>
    obtain ⟨hdisk, hnone⟩ := ih fun options hmem => hopened options (List.mem_append_right _ hmem)
    have hdir : o.disk.isDirectory files.dir := by
      rw [hdisk]
      exact isDirectory_of_read hdata
    rcases hstep.cases_on_disk hdir with ⟨i, options, events, archive, t, rfl, -, hload, ht, rfl⟩ |
      ⟨-, hsame, harchives⟩ | ⟨i, archive, _, _, _, _, -, hopen, -, -, -⟩
    · have hmode := hopened options (List.mem_append_left _ List.mem_cons_self)
      have hverifies := verifies_of_load hload hmode (by rw [ht, hdisk]; exact hdata)
      rw [ht, hdisk] at hverifies
      exact absurd hverifies hsum
    · refine ⟨hsame.trans hdisk, ?_⟩
      intro i
      rw [Option.eq_none_iff_forall_ne_some]
      intro archive hopen
      have hbefore := harchives i archive hopen
      rw [hnone] at hbefore
      cases hbefore
    · rw [hnone] at hopen
      cases hopen

/-! ### Origins -/

/-- The bytes have been committed in the course of some deeds, or they are those of a data file that
    has verified, or that has been opened without being read. -/
def Origin (data sum : Bytes) (deeds : List Deed) (bytes : Bytes) : Prop :=
  (∃ keep entries, Deed.committed keep entries ∈ deeds ∧ bytes = entries.toBytes) ∨
    bytes = data ∧ (sum = Checksum.fileFor data ∨
      ∃ options, Deed.opened options ∈ deeds ∧ options.mode = .ignored)

theorem origin_of_verifies (hclosed : ∀ i, start.archives i = none)
    (hdata : start.disk.read (files.data 0) = .ok data)
    (hsum : start.disk.read (files.checksum 0) = .ok sum) (honly : files.OnlyCurrent start.disk)
    (hrun : Run files start deeds o) {generation : Nat}
    (hread : o.disk.read (files.data generation) = .ok bytes)
    (hverify : FileSet.verify bytes (files.data generation) (files.checksum generation) o.disk =
      .ok ()) : Origin data sum deeds bytes := by
  have hcontained := hrun.contained (contained_found hclosed hdata hsum honly)
  rcases hcontained.disk.of_read hread with rfl | hcommitted
  · refine .inr ⟨rfl, ?_⟩
    by_cases hignored : ∃ options, Deed.opened options ∈ deeds ∧ options.mode = .ignored
    · exact .inr hignored
    · refine .inl ?_
      apply Classical.byContradiction
      intro hne
      -- The files have not been touched, so the pair that verifies is the first one.
      have hdisk : o.disk = start.disk := by
        refine (hrun.untouched hclosed hdata ?_ ?_).1
        · rw [hsum]
          exact fun heq => hne (Except.ok.inj heq)
        · intro options hmem hmode
          exact hignored ⟨options, hmem, hmode⟩
      rw [FileSet.verify_eq_ok_iff, hdisk] at hverify
      rw [hdisk, FileSet.data_eq, FileSet.read_slot_eq_ok_iff] at hread
      obtain rfl : generation = 0 := by
        rcases honly _ (by rw [hread.2]; simp) with heq | heq
        · exact congrArg FileSet.Slot.generation heq
        · cases heq
      rw [hsum] at hverify
      exact hne (Except.ok.inj hverify)
  · exact .inl hcommitted

/-- Bytes that verify after a run have been committed in it as the entries of an archive, or have
    verified when it began, or have been in a data file that was opened without being read. A generation
    that is brought back consists of such bytes. -/
theorem provenance (hclosed : ∀ i, start.archives i = none)
    (hdata : start.disk.read (files.data 0) = .ok data)
    (hsum : start.disk.read (files.checksum 0) = .ok sum) (honly : files.OnlyCurrent start.disk)
    (hrun : Run files start deeds o) :
    (∀ generation bytes, o.disk.read (files.data generation) = .ok bytes →
      FileSet.verify bytes (files.data generation) (files.checksum generation) o.disk = .ok () →
        Origin data sum deeds bytes) ∧
    ∀ i archive generation events t, o.archives i = some archive →
      (Call.restore generation).perform ⟨⟨o.disk, archive⟩, events⟩ = .ok () t →
        ∃ bytes, Origin data sum deeds bytes ∧ FileSet.parse bytes = .ok t.state.archive.entries := by
  refine ⟨fun generation bytes => origin_of_verifies hclosed hdata hsum honly hrun, ?_⟩
  intro i archive generation events t hopen hcall
  obtain ⟨entries, r, ⟨bytes, hread, hparse⟩, -, ht⟩ := Call.commit_of_perform id hcall
  have hcontained := hrun.contained (contained_found hclosed hdata hsum honly)
  obtain ⟨hfiles, -⟩ := hcontained.archives i archive hopen
  simp only [hfiles] at hread hparse
  obtain ⟨hchecksum, hentries⟩ := FileSet.parseVerified_eq_ok_iff.1 hparse
  refine ⟨bytes, ?_, ?_⟩
  · exact origin_of_verifies hclosed hdata hsum honly hrun hread
      (FileSet.verify_eq_ok_iff.2 hchecksum)
  · rw [ht]
    exact hentries

/-- A sound pair is opened, and then a value put under another key: there are two generations that
    verify, the new one and the one that was found. -/
theorem provenance_sound :
    let files : FileSet := ⟨["d"], 0⟩
    let data := Utf8.encode "\x7b\"a\":1\x7d"
    let sum := Checksum.fileFor data
    let disk := (((Disk.empty.set ["d"] .directory).set (files.slotPlace ⟨.data, 0, false⟩)
      (.file data)).set (files.slotPlace ⟨.checksum, 0, false⟩) (.file sum))
    let start : OpenArchives Unit := ⟨disk, fun _ => none⟩
    let options : ArchiveOptions := ⟨.optional, 2⟩
    let archive : Archive :=
      ⟨files, 2, SortedMap.empty.insert "a" ⟨"1".toList, by decide, by decide⟩, some data⟩
    let c : Call := .persist (Utf8.encode "k") (Utf8.encode "2")
    let t := c.perform.after ⟨⟨disk, archive⟩, []⟩
    let deeds := [.committed 2 t.state.archive.entries, .opened options]
    let o := (start.put () ⟨disk, archive⟩).put () t.state
    ((∀ i, start.archives i = none) ∧ disk.read (files.data 0) = .ok data ∧
      disk.read (files.checksum 0) = .ok sum ∧ files.OnlyCurrent disk ∧ Run files start deeds o) ∧
    o.disk.read (files.data 1) = .ok data ∧ Origin data sum deeds data ∧
    Origin data sum deeds t.state.archive.entries.toBytes := by
  intro files data sum disk start options archive c t deeds o
  have hclosed : ∀ i, start.archives i = none := fun _ => rfl
  have hdata : start.disk.read (files.data 0) = .ok data := by decide +kernel
  have hsum : start.disk.read (files.checksum 0) = .ok sum := by decide +kernel
  have honly : files.OnlyCurrent start.disk := FileSet.onlyCurrent_of_pair (by decide +kernel) _ _
  have hload : (load files options).outcome ⟨disk, []⟩ = .ok archive := by decide +kernel
  have hcall : c.perform.outcome ⟨⟨disk, archive⟩, []⟩ = .ok () := by decide +kernel
  have hopened : Run files start [.opened options] (start.put () ⟨disk, archive⟩) :=
    Run.start.opened rfl (by decide +kernel) rfl hload
  have hrun : Run files start deeds o := hopened.committed c id hcall rfl rfl
  have horigin := (provenance hclosed hdata hsum honly hrun).1
  have hone : o.disk.read (files.data 1) = .ok data := by decide +kernel
  have hzero : o.disk.read (files.data 0) = .ok t.state.archive.entries.toBytes := by
    decide +kernel
  have hverifies : FileSet.verify data (files.data 1) (files.checksum 1) o.disk = .ok () := by
    decide +kernel
  have hverifies' : FileSet.verify t.state.archive.entries.toBytes (files.data 0)
      (files.checksum 0) o.disk = .ok () := by
    decide +kernel
  exact ⟨⟨hclosed, hdata, hsum, honly, hrun⟩, hone, horigin 1 data hone hverifies,
    horigin 0 t.state.archive.entries.toBytes hzero hverifies'⟩

/-- A pair that does not verify is opened without being read, and then a value put under another key.
    Generation one holds what has never been committed and verifies, and is brought back. -/
theorem unverified_becomes_generation :
    let files : FileSet := ⟨["d"], 0⟩
    let data := Utf8.encode "\x7b\"a\":1\x7d"
    let disk := (((Disk.empty.set ["d"] .directory).set (files.slotPlace ⟨.data, 0, false⟩)
      (.file data)).set (files.slotPlace ⟨.checksum, 0, false⟩) (.file [0, 0, 0, 0]))
    let start : OpenArchives Unit := ⟨disk, fun _ => none⟩
    let options : ArchiveOptions := ⟨.ignored, 3⟩
    let archive : Archive := ⟨files, 3, .empty, some data⟩
    let c : Call := .persist (Utf8.encode "k") (Utf8.encode "2")
    let t := c.perform.after ⟨⟨disk, archive⟩, []⟩
    let o := (start.put () ⟨disk, archive⟩).put () t.state
    let restored := (Call.restore 1).perform.after ⟨t.state, []⟩
    Run files start [.committed 3 t.state.archive.entries, .opened options] o ∧
    files.OnlyCurrent disk ∧
    disk.read (files.data 0) = .ok data ∧
    FileSet.verify data (files.data 0) (files.checksum 0) disk ≠ .ok () ∧
    o.disk.read (files.data 1) = .ok data ∧
    FileSet.verify data (files.data 1) (files.checksum 1) o.disk = .ok () ∧
    data ≠ t.state.archive.entries.toBytes ∧
    (Call.restore 1).perform.outcome ⟨t.state, []⟩ = .ok () ∧
    FileSet.parse data = .ok restored.state.archive.entries := by
  intro files data disk start options archive c t o restored
  have hload : (load files options).outcome ⟨disk, []⟩ = .ok archive := by decide +kernel
  have hcall : c.perform.outcome ⟨⟨disk, archive⟩, []⟩ = .ok () := by decide +kernel
  have hopened : Run files start [.opened options] (start.put () ⟨disk, archive⟩) :=
    Run.start.opened rfl (by decide +kernel) rfl hload
  have hrun : Run files start [.committed 3 t.state.archive.entries, .opened options] o :=
    hopened.committed c id hcall rfl rfl
  exact ⟨hrun, FileSet.onlyCurrent_of_pair (by decide +kernel) _ _, by decide +kernel⟩

end OpenArchives

end Archive

end TypedStore
