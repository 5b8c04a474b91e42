/-
  TypedStore/Proofs/Archive/Agreement.lean
  ========================================
  **The entries in memory and the files on disk agree.**

  An archive is in step with the disk if the bytes that it holds as committed are those of the data
  file, the data file holds its entries, and the checksum file is the one for these bytes; or if
  there is neither a data file nor an entry (`Mounted.InStep`). Opening an archive brings it in step
  and every commit keeps it there, whatever else is in the directory. So opening the files again
  gives the same entries (`live_map_agrees`).
-/
import TypedStore.Proofs.Archive.Loading

namespace TypedStore

/-- The archive holds what its files hold. -/
def Mounted.InStep (s : Mounted) : Prop :=
  match s.archive.committed with
  | none => s.archive.entries = .empty ∧
      FileSet.readIfPresent (s.archive.files.data 0) s.disk = .ok none
  | some bytes => s.disk.read (s.archive.files.data 0) = .ok bytes ∧
      FileSet.parse bytes = .ok s.archive.entries ∧
      s.disk.read (s.archive.files.checksum 0) = .ok (Checksum.fileFor bytes)

namespace Archive

variable {files : FileSet} {options : ArchiveOptions} {d opened : Journaled Disk} {archive : Archive}
  {s t : Journaled Mounted} {entries : Json.RawObject}

/-! ### Coming into step -/

theorem inStep_of_load (h : load files options d = .ok archive opened)
    (hmode : options.mode ≠ .ignored) : Mounted.InStep ⟨opened.state, archive⟩ := by
  obtain ⟨disk, committed, entries, -, -, hread, hloads, rfl, rfl⟩ := load_eq_ok_iff.1 h
  obtain ⟨mode, keep⟩ := options
  cases committed with
  | none =>
    cases mode with
    | ignored => exact absurd rfl hmode
    | optional => exact ⟨hloads, hread⟩
    | required => cases hloads
  | some bytes =>
    have hdata := FileSet.readIfPresent_eq_some_iff.1 hread
    have hparse : FileSet.parseVerified bytes (files.data 0) (files.checksum 0) disk =
        .ok entries := by
      cases mode with
      | ignored => exact absurd rfl hmode
      | optional => exact hloads
      | required => exact hloads
    obtain ⟨hchecksum, hentries⟩ := FileSet.parseVerified_eq_ok_iff.1 hparse
    exact ⟨hdata, hentries, hchecksum⟩

/-- After a commit an archive is in step, whether it was before or not. -/
theorem inStep_of_replace (h : replace entries s = .ok () t) :
    t.state.InStep ∧ t.state.archive.files = s.state.archive.files ∧
      t.state.archive.entries = entries ∧ t.state.archive.committed = some entries.toBytes := by
  obtain ⟨r, hcommit, rfl⟩ := replace_eq_ok_iff.1 h
  obtain ⟨hdata, hchecksum⟩ := FileSet.commit_current hcommit
  exact ⟨⟨hdata, FileSet.parse_toBytes entries, hchecksum⟩, rfl, rfl, rfl⟩

/-! ### The directory -/

theorem isDirectory_of_read {disk : Disk} {bytes : Bytes}
    (h : disk.read (files.data 0) = .ok bytes) : disk.isDirectory files.dir := by
  obtain ⟨hreaches, -⟩ := Disk.read_eq_ok_iff.1 h
  exact Disk.isDirectory_eq_true_iff.2 (Disk.Reaches.dir hreaches)

theorem isDirectory_of_load (h : load files options d = .ok archive opened) :
    opened.state.isDirectory files.dir := by
  obtain ⟨disk, committed, entries, -, hmake, -, -, -, rfl⟩ := load_eq_ok_iff.1 h
  exact Disk.isDirectory_of_makeDirectories hmake

/-! ### Staying in step -/

/-- What holds of an archive throughout a run. -/
structure Upkeep (start s : Mounted) : Prop where
  files_eq : s.archive.files = start.archive.files
  inStep : s.InStep
  isDirectory : s.disk.isDirectory start.archive.files.dir
  /-- As long as nothing has been committed nothing has changed. -/
  untouched : s.archive.committed = none → s = start

theorem Upkeep.perform {start : Mounted} {c : Call} (h : Upkeep start s.state)
    (hcall : c.perform s = .ok () t) : Upkeep start t.state := by
  rcases Call.perform_cases hcall with ⟨-, rfl⟩ | ⟨entries, r, -, hreplace, hstate⟩
  · exact h
  · obtain ⟨hstep, hfiles, -, hcommitted⟩ := inStep_of_replace hreplace
    rw [hstate]
    refine ⟨hfiles.trans h.files_eq, hstep, ?_, ?_⟩
    · have hread := hstep
      rw [Mounted.InStep, hcommitted] at hread
      rw [← h.files_eq, ← hfiles]
      exact isDirectory_of_read hread.1
    · intro hnone
      rw [hcommitted] at hnone
      cases hnone

theorem Upkeep.run {start : Mounted} {trace : List Outcome} (h : Upkeep start s.state)
    (hrun : Run s trace t) : Upkeep start t.state :=
  hrun.induct (p := fun s => Upkeep start s.state) h fun _ hs hcall => hs.perform hcall

theorem upkeep_of_load (h : load files options d = .ok archive opened)
    (hmode : options.mode ≠ .ignored) :
    Upkeep ⟨opened.state, archive⟩ ⟨opened.state, archive⟩ := by
  have hfiles : archive.files = files := by
    obtain ⟨_, _, _, -, -, -, -, rfl, -⟩ := load_eq_ok_iff.1 h
    rfl
  refine ⟨rfl, inStep_of_load h hmode, ?_, fun _ => rfl⟩
  rw [hfiles]
  exact isDirectory_of_load h

/-- Files that an archive is in step with can be opened again, which changes nothing on disk. -/
theorem load_again {start : Mounted} (h : Upkeep start s.state) {keep : Nat} (hkeep : keep ≠ 0)
    (events : List Event) :
    ∃ again reopened,
      load start.archive.files ⟨.optional, keep⟩ ⟨s.state.disk, events⟩ = .ok again reopened ∧
        reopened.state = s.state.disk ∧ again.entries = s.state.archive.entries := by
  have hmake := Disk.makeDirectories_eq_self h.isDirectory
  have hstep := h.inStep
  rw [Mounted.InStep, h.files_eq] at hstep
  cases hcommitted : s.state.archive.committed with
  | none =>
    rw [hcommitted] at hstep
    exact ⟨_, _, load_eq_ok_iff.2 ⟨_, none, .empty, hkeep, hmake, hstep.2, rfl, rfl, rfl⟩, rfl,
      hstep.1.symm⟩
  | some bytes =>
    rw [hcommitted] at hstep
    obtain ⟨hdata, hparse, hchecksum⟩ := hstep
    have hread := FileSet.readIfPresent_eq_some_iff.2 hdata
    have hloads : start.archive.files.Loads s.state.disk .optional (some bytes)
        s.state.archive.entries := FileSet.parseVerified_eq_ok_iff.2 ⟨hchecksum, hparse⟩
    exact ⟨_, _, load_eq_ok_iff.2 ⟨_, some bytes, s.state.archive.entries, hkeep, hmake, hread,
      hloads, rfl, rfl⟩, rfl, rfl⟩

/-! ### What is retrieved -/

theorem retrieve_outcome {key : Bytes} {name : String} (hkey : Utf8.decode key = .ok name) :
    (medium.retrieve key).outcome s =
      .ok ((s.state.archive.entries.get? name).map (·.bytes)) := by
  change Op.outcome (keyText key >>= _) s = _
  rw [Op.outcome, Op.bind_of_ok (keyText_of_ok hkey)]
  rfl

/-- What is retrieved depends on the entries alone. -/
theorem retrieve_outcome_eq {key : Bytes} (h : ∀ name, Utf8.decode key = .ok name →
      t.state.archive.entries.get? name = s.state.archive.entries.get? name) :
    (medium.retrieve key).outcome t = (medium.retrieve key).outcome s := by
  cases hkey : Utf8.decode key with
  | error fault =>
    change Op.outcome (keyText key >>= _) t = Op.outcome (keyText key >>= _) s
    rw [Op.outcome, Op.outcome, Op.bind_of_error (keyText_of_error hkey),
      Op.bind_of_error (keyText_of_error hkey)]
  | ok name => rw [retrieve_outcome hkey, retrieve_outcome hkey, h name hkey]

theorem get?_of_perform {c : Call} {key : Bytes} {name : String}
    (hkey : Utf8.decode key = .ok name) (htouches : ¬ c.Touches key)
    (h : c.perform s = .ok () t) :
    t.state.archive.entries.get? name = s.state.archive.entries.get? name := by
  rcases Call.perform_cases h with ⟨-, rfl⟩ | ⟨entries, r, hmakes, hreplace, hstate⟩
  · rfl
  obtain ⟨-, -, hentries, -⟩ := inStep_of_replace hreplace
  have hother : ∀ {other : Bytes} {name' : String}, other ≠ key →
      Utf8.decode other = .ok name' → name ≠ name' := by
    rintro other name' hne hother rfl
    exact hne (Utf8.decode_inj hother hkey)
  rw [hstate, hentries]
  cases c with
  | persist other value =>
    obtain ⟨name', text, raw, hname, -, -, rfl⟩ := hmakes
    rw [SortedMap.get?_insert, if_neg (hother htouches hname)]
  | remove other =>
    obtain ⟨name', hname, -, rfl⟩ := hmakes
    rw [SortedMap.get?_erase, if_neg (hother htouches hname)]
  | clear => exact absurd trivial htouches
  | restore generation => exact absurd trivial htouches

theorem get?_of_run {trace : List Outcome} {key : Bytes} {name : String}
    (hkey : Utf8.decode key = .ok name)
    (htouches : ∀ c, (c, .ok ()) ∈ trace → ¬ Call.Touches key c) (hrun : Run s trace t) :
    t.state.archive.entries.get? name = s.state.archive.entries.get? name :=
  hrun.induct (p := fun r => r.state.archive.entries.get? name =
    s.state.archive.entries.get? name) rfl fun hmem hr hcall =>
      (get?_of_perform hkey (htouches _ hmem) hcall).trans hr

/-- A value that has been persisted is retrieved without the blanks around it. -/
theorem retrieve_of_persist {key value : Bytes} {trace : List Outcome} {r : Journaled Mounted}
    (hpersist : (Call.persist key value).perform s = .ok () r) (hrun : Run r trace t)
    (htouches : ∀ c, (c, .ok ()) ∈ trace → ¬ Call.Touches key c) :
    ∃ text, Utf8.decode value = .ok text ∧
      (medium.retrieve key).outcome t = .ok (some (Utf8.encodeChars (Json.trim text.toList))) := by
  rcases Call.perform_cases hpersist with ⟨hidles, -⟩ | ⟨entries, r', hmakes, hreplace, hstate⟩
  · cases hidles
  obtain ⟨name, text, raw, hkey, htext, hraw, rfl⟩ := hmakes
  obtain ⟨-, -, hentries, -⟩ := inStep_of_replace hreplace
  have hchars : raw.chars = Json.trim text.toList := by
    unfold Json.RawText.ofChars? at hraw
    split at hraw
    · rw [← Option.some.inj hraw]
    · cases hraw
  refine ⟨text, htext, ?_⟩
  rw [retrieve_outcome hkey, get?_of_run hkey htouches hrun, hstate, hentries,
    SortedMap.get?_insert, if_pos rfl, ← hchars]
  rfl

/-- Whatever calls an open archive gets, its entries and its files agree: as long as nothing has been
    committed there is no data file and no entry; from the first commit on the data file holds just
    the entries, the bytes that the archive remembers are its bytes, and the checksum file is theirs.
    Opening the files again therefore finds the same keys and values, and a value that has been
    persisted is retrieved, without the blanks around it, until a call touches its key, whether the
    files have been opened again or not. -/
theorem live_map_agrees {trace : List Outcome} (hopen : load files options d = .ok archive opened)
    (hmode : options.mode ≠ .ignored)
    (hrun : Run ⟨⟨opened.state, archive⟩, opened.events⟩ trace s) :
    (s.state.InStep ∧
      (s.state.archive.committed = none → s.state = ⟨opened.state, archive⟩)) ∧
    (∀ keep events, keep ≠ 0 → ∃ again reopened,
      load files ⟨.optional, keep⟩ ⟨s.state.disk, events⟩ = .ok again reopened ∧
        reopened.state = s.state.disk ∧
        medium.keys.outcome ⟨⟨reopened.state, again⟩, reopened.events⟩ = medium.keys.outcome s ∧
        ∀ key later t, Run ⟨⟨reopened.state, again⟩, reopened.events⟩ later t →
          (∀ c, (c, .ok ()) ∈ later → ¬ Call.Touches key c) →
            (medium.retrieve key).outcome t = (medium.retrieve key).outcome s) ∧
    ∀ before key value after, trace = before ++ (.persist key value, .ok ()) :: after →
      (∀ c, (c, .ok ()) ∈ after → ¬ c.Touches key) →
        ∃ text, Utf8.decode value = .ok text ∧
          (medium.retrieve key).outcome s =
            .ok (some (Utf8.encodeChars (Json.trim text.toList))) := by
  have hfiles : archive.files = files := by
    obtain ⟨_, _, _, -, -, -, -, rfl, -⟩ := load_eq_ok_iff.1 hopen
    rfl
  have hupkeep := (upkeep_of_load hopen hmode).run hrun
  refine ⟨⟨hupkeep.inStep, hupkeep.untouched⟩, ?_, ?_⟩
  · intro keep events hkeep
    obtain ⟨again, reopened, hload, hdisk, hentries⟩ := load_again hupkeep hkeep events
    rw [hfiles] at hload
    refine ⟨again, reopened, hload, hdisk, ?_, ?_⟩
    · change Except.ok (again.entries.keys.map Utf8.encode) =
        Except.ok (s.state.archive.entries.keys.map Utf8.encode)
      rw [hentries]
    · intro key later t hlater htouches
      apply retrieve_outcome_eq
      intro name hkey
      rw [get?_of_run hkey htouches hlater, hentries]
  · rintro before key value after rfl htouches
    obtain ⟨r, -, hrest⟩ := hrun.append_inv
    cases hrest with
    | done hpersist hafter => exact retrieve_of_persist hpersist hafter htouches

/-- A run on a new directory: a value with blanks around it is persisted, a key that is not there is
    removed, and another value is refused. -/
theorem live_map_agrees_new :
    let files : FileSet := ⟨["d"], 0⟩
    let opened := (load files {}).after ⟨.empty, []⟩
    let persist : Call := .persist (Utf8.encode "k") (Utf8.encode " [1, 2]\n")
    let remove : Call := .remove (Utf8.encode "x")
    let refused : Call := .persist (Utf8.encode "k") (Utf8.encode "[")
    let s₀ : Journaled Mounted := ⟨⟨opened.state, ⟨files, 3, .empty, none⟩⟩, opened.events⟩
    let s₁ := persist.perform.after s₀
    let s₂ := remove.perform.after s₁
    (load files {} ⟨.empty, []⟩ = .ok ⟨files, 3, .empty, none⟩ opened ∧
      LoadMode.optional ≠ .ignored ∧
      Run s₀ [(persist, .ok ()), (remove, .ok ()), (refused, .error .notJson)] s₂) ∧
    s₂.state.InStep ∧
    ∃ text, Utf8.decode (Utf8.encode " [1, 2]\n") = .ok text ∧
      (medium.retrieve (Utf8.encode "k")).outcome s₂ =
        .ok (some (Utf8.encodeChars (Json.trim text.toList))) := by
  intro files opened persist remove refused s₀ s₁ s₂
  have hopen : load files {} ⟨.empty, []⟩ = .ok ⟨files, 3, .empty, none⟩ opened :=
    Op.eq_ok_of_outcome (by decide +kernel)
  have hpersist : persist.perform s₀ = .ok () s₁ := Op.eq_ok_of_outcome (by decide +kernel)
  have hremove : remove.perform s₁ = .ok () s₂ := Op.eq_ok_of_outcome (by decide +kernel)
  have hunfit : ¬ refused.Fit s₂.state := by
    rintro (hidles | ⟨entries, name, text, raw, -, htext, hraw, -⟩)
    · cases hidles
    · obtain rfl : "[" = text := Except.ok.inj ((Utf8.decode_encode "[").symm.trans htext)
      have hnone : Json.RawText.ofChars? "[".toList = none := by decide +kernel
      rw [hnone] at hraw
      cases hraw
  have hrefused : refused.perform s₂ = .error .notJson s₂ := by
    obtain ⟨fault, hfault⟩ := Call.perform_of_not_fit hunfit
    have houtcome : refused.perform.outcome s₂ = .error .notJson := by decide +kernel
    rw [Op.outcome, hfault] at houtcome
    rw [hfault, Except.error.inj houtcome]
  have hrun : Run s₀ [(persist, .ok ()), (remove, .ok ()), (refused, .error .notJson)] s₂ :=
    .done hpersist (.done hremove (.refused hunfit hrefused .nil))
  have hmode : LoadMode.optional ≠ .ignored := by decide
  obtain ⟨⟨hstep, -⟩, -, hpersisted⟩ := live_map_agrees hopen hmode hrun
  refine ⟨⟨hopen, hmode, hrun⟩, hstep, hpersisted [] _ _ _ rfl ?_⟩
  intro c hc htouches
  have hremoveOnly : c = remove := by simpa using hc
  subst hremoveOnly
  have hne : Utf8.encode "x" ≠ Utf8.encode "k" := by decide +kernel
  exact hne htouches

end Archive

end TypedStore
