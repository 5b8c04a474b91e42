/-
  TypedStore/Proofs/Archive/History.lean
  ======================================
  **The generations are the history of the entries.**

  An archive on a directory that was empty keeps the last states of its entries, and nothing else:
  after any successful calls generation `i` holds the entries as they were `i` commits ago, for as
  many generations as are kept (`Remembers`). A commit puts the new entries in front of the past
  (`commit_ofPast`); a restore is a commit of something from the past.
-/
import TypedStore.Proofs.Archive.Agreement
import TypedStore.Proofs.Archive.Generations
import TypedStore.Store.Generations

namespace TypedStore

namespace FileSet

variable {files : FileSet} {disk : Disk} {keep : Nat} {past : List Json.RawObject}

/-- What a file of a generation with some entries holds. -/
def Part.contents (entries : Json.RawObject) : Part → Bytes
  | .data => entries.toBytes
  | .checksum => Checksum.fileFor entries.toBytes

/-- What the slots hold if the generations are those with these entries, the current one first. -/
def Contents.ofEntries (generations : List Json.RawObject) : Contents := fun slot =>
  if slot.draft then none
  else generations[slot.generation]?.map fun entries => .file (slot.part.contents entries)

/-- What the slots hold if the entries have been those of `past`, the newest first. -/
def Contents.ofPast (keep : Nat) (past : List Json.RawObject) : Contents := fun slot =>
  if slot.draft = false ∧ slot.generation < keep then
    past[slot.generation]?.map fun entries => .file (slot.part.contents entries)
  else none

/-- A pair of files written by way of drafts. -/
theorem Contents.writePair_apply (view : Contents) (generation : Nat) (entries : Json.RawObject)
    (part : Part) (n : Nat) (draft : Bool) :
    (view.writeAtomic .data generation entries.toBytes).writeAtomic .checksum generation
        (Checksum.fileFor entries.toBytes) ⟨part, n, draft⟩ =
      if n = generation then if draft then none else some (.file (part.contents entries))
      else view ⟨part, n, draft⟩ := by
  by_cases hn : n = generation <;> cases part <;> cases draft <;>
    simp [writeAtomic, put, Part.contents, hn]

/-- Moved up by one, the generations from two on are what they were before, the last that is kept
    without. -/
theorem Contents.moveUp_ofEntries {keep : Nat} (hkeep : 2 ≤ keep) (generations : List Json.RawObject)
    (entries : Json.RawObject) (part : Part) (n : Nat) (draft : Bool) :
    (ofEntries generations).moveUp (keep - 2) ⟨part, n + 2, draft⟩ =
      ofEntries (entries :: generations.eraseIdx (keep - 1)) ⟨part, n + 2, draft⟩ := by
  rw [moveUp_apply]
  cases draft with
  | true => simp [ofEntries]
  | false =>
    simp only [ofEntries, Bool.false_eq_true, false_or, List.getElem?_cons_succ,
      List.getElem?_eraseIdx, ↓reduceIte]
    rcases Nat.lt_trichotomy (n + 2) (keep - 1) with hmoved | hlast | hbeyond
    · rw [if_neg (by omega), if_neg (by omega), if_neg (by omega), if_pos (by omega)]
      rfl
    · -- The generation before the last that is kept takes the place of the last, if it is there.
      have hlength : generations[n + 1]? = none → generations[n + 2]? = none := by
        simp only [List.getElem?_eq_none_iff]
        omega
      rw [if_neg (by omega), if_pos (by omega), if_pos (by omega)]
      obtain rfl : keep = n + 3 := by omega
      change Option.or (generations[n + 1]?.map _) (generations[n + 2]?.map _) = _
      cases hnext : generations[n + 1]? with
      | none =>
        rw [hlength hnext]
        rfl
      | some next => rfl
    · rw [if_pos (by omega), if_neg (by omega)]

/-- A commit puts the new entries in front and takes the last generation that is kept away. -/
theorem Contents.commit_ofEntries (hkeep : keep ≠ 0) (generations : List Json.RawObject)
    (entries : Json.RawObject) :
    (ofEntries generations).commit keep (generations.head?.map (·.toBytes)) entries.toBytes =
      ofEntries (entries :: generations.eraseIdx (keep - 1)) := by
  funext slot
  obtain ⟨part, n, draft⟩ := slot
  rw [commit, writePair_apply]
  cases n with
  | zero => cases draft <;> simp [ofEntries]
  | succ n =>
    rw [if_neg (Nat.succ_ne_zero n)]
    cases generations with
    | nil => simp [rotate, ofEntries]
    | cons newest older =>
      by_cases hrotate : 2 ≤ keep
      · change rotate _ keep (some newest.toBytes) _ = _
        rw [rotate]
        simp only [hrotate, ↓reduceIte]
        rw [writePair_apply]
        cases n with
        | zero =>
          have hlast : keep - 1 = keep - 2 + 1 := by omega
          rw [hlast]
          cases draft <;> simp [ofEntries]
        | succ n =>
          rw [if_neg (by omega)]
          exact moveUp_ofEntries hrotate _ entries part n draft
      · obtain rfl : keep = 1 := by omega
        simp [rotate, ofEntries]

theorem Contents.ofPast_eq (keep : Nat) (past : List Json.RawObject) :
    ofPast keep past = ofEntries (past.take keep) := by
  funext slot
  by_cases hdraft : slot.draft <;> by_cases hkept : slot.generation < keep <;>
    simp [ofPast, ofEntries, hdraft, hkept]

/-- A commit adds the new entries to the past. -/
theorem Contents.commit_ofPast (hkeep : keep ≠ 0) (past : List Json.RawObject)
    (entries : Json.RawObject) :
    (ofPast keep past).commit keep (past.head?.map (·.toBytes)) entries.toBytes =
      ofPast keep (entries :: past) := by
  obtain ⟨last, rfl⟩ := Nat.exists_eq_succ_of_ne_zero hkeep
  have hhead : past.head? = (past.take (last + 1)).head? := by
    cases past <;> rfl
  have herase : (past.take (last + 1)).eraseIdx last = past.take last := by
    apply List.ext_getElem?
    intro n
    simp only [List.getElem?_eraseIdx, List.getElem?_take]
    grind
  rw [ofPast_eq, ofPast_eq, hhead, commit_ofEntries hkeep, Nat.succ_eq_add_one,
    Nat.add_sub_cancel, herase, List.take_succ_cons]

/-! ### Generations on a disk -/

theorem countFrom_eq {count : Nat} (h : ∀ i, disk.contains (files.data i) ↔ i < count)
    (generation bound : Nat) :
    files.countFrom disk generation bound = min (count - generation) bound := by
  induction bound generalizing generation with
  | zero => simp [countFrom]
  | succ bound ih =>
    rw [countFrom, ih]
    by_cases hgeneration : generation < count
    · rw [if_pos ((h generation).2 hgeneration)]
      omega
    · rw [if_neg (mt (h generation).1 hgeneration)]
      omega

theorem contains_ofEntries_iff {generations : List Json.RawObject}
    (h : files.Holds disk (.ofEntries generations)) (slot : Slot) :
    disk.contains (files.slotPath slot) ↔
      slot.draft = false ∧ slot.generation < generations.length := by
  rw [contains_slot_iff h]
  by_cases hdraft : slot.draft <;> simp [Contents.ofEntries, hdraft]

theorem read_ofEntries {generations : List Json.RawObject}
    (h : files.Holds disk (.ofEntries generations)) {i : Nat} {entries : Json.RawObject}
    (hentries : generations[i]? = some entries) (part : Part) :
    disk.read (files.slotPath ⟨part, i, false⟩) = .ok (part.contents entries) := by
  have hview : Contents.ofEntries generations ⟨part, i, false⟩ =
      some (.file (part.contents entries)) := by
    simp [Contents.ofEntries, hentries]
  refine read_slot_eq_ok_iff.2 ⟨h.reached _ ?_, (h.held_eq _).trans hview⟩
  rw [hview]
  simp

/-- The pair of a generation verifies and holds its entries. -/
theorem parseVerified_ofEntries {generations : List Json.RawObject}
    (h : files.Holds disk (.ofEntries generations)) {i : Nat} {entries : Json.RawObject}
    (hentries : generations[i]? = some entries) :
    parseVerified entries.toBytes (files.data i) (files.checksum i) disk = .ok entries :=
  parseVerified_eq_ok_iff.2 ⟨read_ofEntries h hentries .checksum, parse_toBytes entries⟩

theorem contains_ofPast_iff (h : files.Holds disk (.ofPast keep past)) (slot : Slot) :
    disk.contains (files.slotPath slot) ↔
      slot.draft = false ∧ slot.generation < min past.length keep := by
  rw [Contents.ofPast_eq] at h
  rw [contains_ofEntries_iff h, List.length_take, Nat.min_comm]

/-- An empty directory has no file of the store in it. -/
theorem held_of_below_eq_nil (h : disk.below files.dir.place = []) (slot : Slot) :
    files.held disk slot = none := by
  rw [held, Disk.lookup?, if_neg (files.slotPlace_ne_root slot)]
  cases hentry : disk.entries.get? (files.slotPlace slot) with
  | none => rfl
  | some entry =>
    have hmem : (files.slotPlace slot, entry) ∈ disk.below files.dir.place :=
      List.mem_filter.2 ⟨SortedMap.mem_toList_iff.2 hentry, by simp [slotPlace]⟩
    rw [h] at hmem
    cases hmem

theorem holds_of_below_eq_nil (h : disk.below files.dir.place = []) :
    files.Holds disk (.ofEntries []) := by
  have hnone : ∀ slot, Contents.ofEntries [] slot = none := fun slot => by simp [Contents.ofEntries]
  refine ⟨?_, ?_, ?_⟩
  · intro slot
    rw [held_of_below_eq_nil h, hnone]
  · intro slot
    rw [hnone]
    simp
  · intro slot hslot
    exact absurd (hnone slot) hslot

end FileSet

namespace Archive

variable {files : FileSet} {options : ArchiveOptions} {d opened : Journaled Disk} {archive : Archive}
  {s t start : Journaled Mounted} {past : List Json.RawObject} {entries : Json.RawObject}

/-! ### The past of an archive -/

/-- An operation that only looks at the entries. -/
def Looks (s t : Journaled Mounted) : Prop :=
  (∃ key value, medium.retrieve key s = .ok value t) ∨
    (∃ key present, medium.contains key s = .ok present t) ∨
      ∃ listed, medium.keys s = .ok listed t

/-- Successful operations have led from `start` to a state, and `past` are the entries after each
    of them that has committed, the newest first. -/
inductive Recorded (start : Journaled Mounted) :
    List Json.RawObject → Journaled Mounted → Prop where
  | start : Recorded start [] start
  | looked {s t : Journaled Mounted} {past : List Json.RawObject} :
    Recorded start past s → Looks s t → Recorded start past t
  | idled {s t : Journaled Mounted} {past : List Json.RawObject} {c : Call} :
    Recorded start past s → c.Idles s.state → c.perform s = .ok () t → Recorded start past t
  | committed {s t : Journaled Mounted} {past : List Json.RawObject} {c : Call} :
    Recorded start past s → ¬ c.Idles s.state → c.perform s = .ok () t →
      Recorded start (t.state.archive.entries :: past) t

/-- The archive and its files are what a past of its entries makes of them. -/
structure Keeps (files : FileSet) (keep : Nat) (past : List Json.RawObject) (s : Mounted) :
    Prop where
  files_eq : s.archive.files = files
  keep_eq : s.archive.keep = keep
  entries_eq : s.archive.entries = past.headD .empty
  committed_eq : s.archive.committed = past.head?.map (·.toBytes)
  holds : files.Holds s.disk (.ofPast keep past)

theorem eq_of_looks (h : Looks s t) : t = s := by
  have hkey : ∀ {α : Type} {key : Bytes} {f : String → Op StorageFault Mounted α} {a : α},
      (∀ name r, ∃ b, f name r = .ok b r) → (keyText key >>= f) s = .ok a t → t = s := by
    intro α key f a hf hok
    cases hname : Utf8.decode key with
    | error fault =>
      rw [Op.bind_of_error (keyText_of_error hname)] at hok
      cases hok
    | ok name =>
      obtain ⟨b, hb⟩ := hf name s
      rw [Op.bind_of_ok (keyText_of_ok hname), hb] at hok
      cases hok
      rfl
  rcases h with ⟨key, value, h⟩ | ⟨key, present, h⟩ | ⟨listed, h⟩
  · exact hkey (fun _ _ => ⟨_, rfl⟩) h
  · exact hkey (fun _ _ => ⟨_, rfl⟩) h
  · cases h
    rfl

theorem keeps_of_load (h : load files options d = .ok archive opened)
    (hempty : opened.state.below files.dir.place = []) :
    Keeps files options.keep [] ⟨opened.state, archive⟩ := by
  obtain ⟨disk, committed, entries, -, -, hread, hloads, rfl, rfl⟩ := load_eq_ok_iff.1 h
  have hcommitted : committed = none := by
    cases committed with
    | none => rfl
    | some bytes =>
      have hdata := FileSet.readIfPresent_eq_some_iff.1 hread
      rw [FileSet.data_eq, FileSet.read_slot_eq_ok_iff] at hdata
      obtain ⟨-, hheld⟩ := hdata
      rw [FileSet.held_of_below_eq_nil hempty] at hheld
      cases hheld
  subst hcommitted
  have hentries : entries = .empty := by
    obtain ⟨mode, keep⟩ := options
    cases mode with
    | ignored => exact hloads
    | optional => exact hloads
    | required => cases hloads
  refine ⟨rfl, rfl, hentries, rfl, ?_⟩
  rw [FileSet.Contents.ofPast_eq, List.take_nil]
  exact FileSet.holds_of_below_eq_nil hempty

theorem Keeps.replace {keep : Nat} (h : Keeps files keep past s.state) (hkeep : keep ≠ 0)
    (hreplace : replace entries s = .ok () t) : Keeps files keep (entries :: past) t.state := by
  obtain ⟨r, hcommit, rfl⟩ := replace_eq_ok_iff.1 hreplace
  rw [h.files_eq, h.keep_eq, h.committed_eq] at hcommit
  obtain ⟨hholds, -⟩ := FileSet.commit_holds (s := ⟨s.state.disk, s.events⟩) h.holds hcommit
  rw [FileSet.Contents.commit_ofPast hkeep] at hholds
  exact ⟨h.files_eq, h.keep_eq, rfl, rfl, hholds⟩

/-- Whatever operations succeed, the past is kept. -/
theorem Recorded.keeps {keep : Nat} (h : Recorded start past s)
    (hstart : Keeps files keep [] start.state) (hkeep : keep ≠ 0) :
    Keeps files keep past s.state := by
  induction h with
  | start => exact hstart
  | looked _ hlooks ih =>
    rw [eq_of_looks hlooks]
    exact ih
  | idled _ hidles hcall ih =>
    rw [Call.perform_of_idles hidles] at hcall
    cases hcall
    exact ih
  | committed _ hidles hcall ih =>
    rcases Call.perform_cases hcall with ⟨hidles', -⟩ | ⟨entries, r, -, hreplace, hstate⟩
    · exact absurd hidles' hidles
    · have hentries := (inStep_of_replace hreplace).2.2.1
      rw [hstate, hentries]
      exact ih.replace hkeep hreplace

/-! ### What is found on disk -/

/-- The generations on disk are the last states of the entries, as many as are kept. There is no
    file of another generation, and no draft. -/
structure Remembers (past : List Json.RawObject) (s : Mounted) : Prop where
  count : generations s = min past.length s.archive.keep
  sound : ∀ i entries, i < s.archive.keep → past[i]? = some entries →
    ∃ bytes, s.disk.read (s.archive.files.data i) = .ok bytes ∧
      FileSet.parseVerified bytes (s.archive.files.data i) (s.archive.files.checksum i) s.disk =
        .ok entries
  absent : ∀ slot : FileSet.Slot, slot.draft ∨ min past.length s.archive.keep ≤ slot.generation →
    ¬ s.disk.contains (s.archive.files.slotPath slot)

theorem Keeps.makes_restore {keep i : Nat} {s : Mounted} (h : Keeps files keep past s)
    (hkept : i < keep) (hpast : past[i]? = some entries) :
    (Call.restore i).Makes s entries := by
  have hholds := h.holds
  rw [FileSet.Contents.ofPast_eq] at hholds
  have hentries : (past.take keep)[i]? = some entries := by
    rw [List.getElem?_take, if_pos hkept]
    exact hpast
  rw [Call.Makes, h.files_eq]
  exact ⟨entries.toBytes, FileSet.read_ofEntries hholds hentries .data,
    FileSet.parseVerified_ofEntries hholds hentries⟩

theorem Keeps.remembers {keep : Nat} {s : Mounted} (h : Keeps files keep past s) :
    Remembers past s := by
  obtain ⟨hfiles, hkeep, -, -, hholds⟩ := id h
  refine ⟨?_, ?_, ?_⟩
  · have hcontains : ∀ i, s.disk.contains (files.data i) ↔ i < min past.length keep := by
      intro i
      rw [FileSet.data_eq, FileSet.contains_ofPast_iff hholds]
      simp
    rw [generations, hfiles, hkeep, FileSet.countFrom_eq hcontains]
    omega
  · intro i entries hkept hpast
    exact h.makes_restore (hkeep ▸ hkept) hpast
  · rintro slot hslot hcontains
    rw [hfiles, FileSet.contains_ofPast_iff hholds] at hcontains
    obtain ⟨hdraft, hgeneration⟩ := hcontains
    rcases hslot with hdraft' | hle
    · rw [hdraft] at hdraft'
      cases hdraft'
    · rw [hkeep] at hle
      omega

/-! ### Bringing a generation back -/

variable {store : Store Mounted} {locks : KeyLocks} {i : Nat}

theorem restoreSnapshot_of_no_snapshot (hstore : store.snapshots = some snapshots)
    (hi : ¬ (1 ≤ i ∧ i < generations s.state)) :
    store.restoreSnapshot i ⟨⟨s.state, locks⟩, s.events⟩ =
      .error (.invalidId i (generations s.state))
        ⟨⟨s.state, locks⟩, s.events ++ [.restoreRejected i (generations s.state)]⟩ := by
  have hcount : store.snapshotCount s.state = generations s.state := by
    rw [Store.snapshotCount, hstore]
    rfl
  rw [Store.restoreSnapshot, Op.bind_of_ok (Op.state_apply _), hcount, hstore]
  simp only [hi, ↓reduceIte]
  rfl

theorem restoreSnapshot_of_snapshot (hstore : store.snapshots = some snapshots)
    (hi : 1 ≤ i ∧ i < generations s.state) :
    store.restoreSnapshot i ⟨⟨s.state, locks⟩, s.events⟩ =
      (Store.onMedium (restore i)).mapError SnapshotFault.storage
        ⟨⟨s.state, locks⟩, s.events⟩ := by
  have hcount : store.snapshotCount s.state = generations s.state := by
    rw [Store.snapshotCount, hstore]
    rfl
  rw [Store.restoreSnapshot, Op.bind_of_ok (Op.state_apply _), hcount, hstore]
  simp only [hi, and_self, ↓reduceIte]
  rfl

theorem Keeps.restore_answers {keep : Nat} (h : Keeps files keep past s.state) (hkeep : keep ≠ 0)
    (hi : i < keep) (hpast : past[i]? = some entries) :
    (Archive.restore i).Answers FileSet.IsDiskFault s (.ok ())
      (Keeps files keep (entries :: past)) := by
  obtain ⟨bytes, hread, hparse⟩ := h.makes_restore hi hpast
  have hreplace : (Archive.replace entries).Answers FileSet.IsDiskFault s (.ok ())
      (Keeps files keep (entries :: past)) := by
    apply (replace_failsOnly entries).answers
    intro _ t hok
    exact ⟨rfl, h.replace hkeep hok⟩
  rw [Op.answers_congr (restore_of_sound hread hparse)]
  apply hreplace.bind
  intro t ht
  exact Op.answers_of_ok rfl ht

theorem Keeps.restore_succeeds {keep : Nat} (h : Keeps files keep past s.state) (hkeep : keep ≠ 0)
    (hi : i < keep) (hpast : past[i]? = some entries) (hroom : files.Roomy keep s.state.disk) :
    ∃ t, Archive.restore i s = .ok () t := by
  obtain ⟨bytes, hread, hparse⟩ := h.makes_restore hi hpast
  obtain ⟨r, hcommit⟩ := FileSet.commit_succeeds (s := ⟨s.state.disk, s.events⟩) h.holds hroom hkeep
    s.state.archive.committed entries.toBytes
  rw [restore_of_sound hread hparse]
  rw [← h.files_eq, ← h.keep_eq] at hcommit
  exact ⟨_, Op.bind_eq_ok_iff.2 ⟨(), _, replace_eq_ok_iff.2 ⟨r, hcommit, rfl⟩, rfl⟩⟩

/-- What restoring a generation that is there does to a store. -/
theorem Keeps.restoreSnapshot_answers {keep : Nat} (h : Keeps files keep past s.state)
    (hkeep : keep ≠ 0) (hstore : store.snapshots = some snapshots)
    (hi : 1 ≤ i ∧ i < min past.length keep) (hpast : past[i]? = some entries) (locks : KeyLocks) :
    (store.restoreSnapshot i).Answers (fun fault => ∃ reason, fault = .storage (.disk reason))
      ⟨⟨s.state, locks⟩, s.events⟩ (.ok ()) fun t => Keeps files keep (entries :: past) t.medium := by
  have hcount : generations s.state = min past.length keep := by
    rw [h.remembers.count, h.keep_eq]
  have hrestore := h.restore_answers hkeep (show i < keep by omega) hpast
  have hmedium : (Store.onMedium (restore i)).Answers FileSet.IsDiskFault
      ⟨⟨s.state, locks⟩, s.events⟩ (.ok ())
      fun t => Keeps files keep (entries :: past) t.medium :=
    hrestore.within fun _ ht => ht
  rw [Op.answers_congr (restoreSnapshot_of_snapshot hstore (hcount ▸ hi))]
  apply hmedium.mapError
  rintro _ ⟨reason, rfl⟩
  exact ⟨reason, rfl⟩

/-- On a directory that was empty the generations are the last states of the entries, whatever
    operations have succeeded: there are as many as there have been commits, at most as many as are
    kept, and each holds its entries under a checksum that is right. An operation that has nothing to
    change leaves them alone. A store brings back just the earlier ones, unless a file operation
    fails, and this is one more commit: the entries become those of the generation, and the others
    move up by one. -/
theorem generations_are_history (hopen : load files options d = .ok archive opened)
    (hempty : opened.state.below files.dir.place = [])
    (hrun : Recorded ⟨⟨opened.state, archive⟩, opened.events⟩ past s)
    (hstore : store.snapshots = some snapshots) :
    (s.state.archive.keep = options.keep ∧ s.state.archive.entries = past.headD .empty ∧
      Remembers past s.state) ∧
    (∀ c : Call, c.Idles s.state → c.perform s = .ok () s) ∧
    (∀ locks i, ¬ (1 ≤ i ∧ i < min past.length options.keep) →
      store.restoreSnapshot i ⟨⟨s.state, locks⟩, s.events⟩ =
        .error (.invalidId i (min past.length options.keep))
          ⟨⟨s.state, locks⟩, s.events ++ [.restoreRejected i (min past.length options.keep)]⟩) ∧
    ∀ locks i, 1 ≤ i ∧ i < min past.length options.keep → ∃ entries, past[i]? = some entries ∧
      (files.Roomy options.keep s.state.disk →
        ∃ t, store.restoreSnapshot i ⟨⟨s.state, locks⟩, s.events⟩ = .ok () t) ∧
      (∀ fault t, store.restoreSnapshot i ⟨⟨s.state, locks⟩, s.events⟩ = .error fault t →
        ∃ reason, fault = .storage (.disk reason)) ∧
      ∀ t, store.restoreSnapshot i ⟨⟨s.state, locks⟩, s.events⟩ = .ok () t →
        t.state.medium.archive.entries = entries ∧ Remembers (entries :: past) t.state.medium ∧
          ∀ u, i = 1 → store.restoreSnapshot 1 t = .ok () u →
            u.state.medium.archive.entries = s.state.archive.entries := by
  have hkeep : options.keep ≠ 0 := by
    obtain ⟨_, _, _, hkeep, -⟩ := load_eq_ok_iff.1 hopen
    exact hkeep
  have hkeeps : Keeps files options.keep past s.state :=
    hrun.keeps (keeps_of_load hopen hempty) hkeep
  have hcount : generations s.state = min past.length options.keep := by
    rw [hkeeps.remembers.count, hkeeps.keep_eq]
  refine ⟨⟨hkeeps.keep_eq, hkeeps.entries_eq, hkeeps.remembers⟩,
    fun c hidles => Call.perform_of_idles hidles, ?_, ?_⟩
  · intro locks i hi
    rw [← hcount] at hi ⊢
    exact restoreSnapshot_of_no_snapshot hstore hi
  · intro locks i hi
    have hlength : i < past.length := by omega
    have hpast : past[i]? = some past[i] := List.getElem?_eq_getElem hlength
    have hanswers := hkeeps.restoreSnapshot_answers hkeep hstore hi hpast locks
    refine ⟨past[i], hpast, ?_, fun _ _ hfault => hanswers.fails hfault, ?_⟩
    · intro hroom
      obtain ⟨r, hr⟩ := hkeeps.restore_succeeds hkeep (by omega) hpast hroom
      rw [restoreSnapshot_of_snapshot hstore (hcount ▸ hi)]
      exact ⟨_, Op.mapError_eq_ok_iff.2 (Op.within_eq_ok_iff.2 ⟨r, hr, rfl⟩)⟩
    · intro t ht
      have hnext := hanswers.post_of_ok ht
      refine ⟨hnext.entries_eq, hnext.remembers, ?_⟩
      rintro u rfl hu
      -- The generation that was current is generation one now.
      have hsecond : (past[1] :: past)[1]? = some past[0] := by simp
      have hagain := (Keeps.restoreSnapshot_answers (s := ⟨t.state.medium, t.events⟩) hnext hkeep
        hstore ⟨hi.1, by rw [List.length_cons]; omega⟩ hsecond _).post_of_ok hu
      rw [hagain.entries_eq, hkeeps.entries_eq]
      cases past with
      | nil => cases hlength
      | cons newest older => rfl

/-- Two values under one key in a new directory: there are two generations, and no generation two. -/
theorem generations_are_history_new :
    let files : FileSet := ⟨["d"], 0⟩
    let opened := (load files {}).after ⟨.empty, []⟩
    let first : Call := .persist (Utf8.encode "k") (Utf8.encode "1")
    let second : Call := .persist (Utf8.encode "k") (Utf8.encode "2")
    let store : Store Mounted := ⟨medium, some snapshots, .reject, {}, .empty⟩
    let s₀ : Journaled Mounted := ⟨⟨opened.state, ⟨files, 3, .empty, none⟩⟩, opened.events⟩
    let s₁ := first.perform.after s₀
    let s₂ := second.perform.after s₁
    let past := [s₂.state.archive.entries, s₁.state.archive.entries]
    (load files {} ⟨.empty, []⟩ = .ok ⟨files, 3, .empty, none⟩ opened ∧
      opened.state.below files.dir.place = [] ∧ Recorded s₀ past s₂ ∧
      store.snapshots = some snapshots) ∧
    Remembers past s₂.state ∧
    store.restoreSnapshot 2 ⟨⟨s₂.state, .empty⟩, s₂.events⟩ =
      .error (.invalidId 2 2) ⟨⟨s₂.state, .empty⟩, s₂.events ++ [.restoreRejected 2 2]⟩ ∧
    ∃ entries, past[1]? = some entries ∧
      ∀ t, store.restoreSnapshot 1 ⟨⟨s₂.state, .empty⟩, s₂.events⟩ = .ok () t →
        t.state.medium.archive.entries = entries := by
  intro files opened first second store s₀ s₁ s₂ past
  have hopen : load files {} ⟨.empty, []⟩ = .ok ⟨files, 3, .empty, none⟩ opened :=
    Op.eq_ok_of_outcome (by decide +kernel)
  have hempty : opened.state.below files.dir.place = [] := by decide +kernel
  have hfirst : first.perform s₀ = .ok () s₁ := Op.eq_ok_of_outcome (by decide +kernel)
  have hsecond : second.perform s₁ = .ok () s₂ := Op.eq_ok_of_outcome (by decide +kernel)
  have hrun : Recorded s₀ past s₂ := .committed (.committed .start id hfirst) id hsecond
  have hstore : store.snapshots = some snapshots := rfl
  obtain ⟨⟨-, -, hremembers⟩, -, hrefused, hrestored⟩ :=
    generations_are_history hopen hempty hrun hstore
  obtain ⟨entries, hpast, -, -, hentries⟩ := hrestored .empty 1 ⟨Nat.le_refl 1, by decide⟩
  exact ⟨⟨hopen, hempty, hrun, hstore⟩, hremembers, hrefused .empty 2 (by decide), entries, hpast,
    fun t ht => (hentries t ht).1⟩

end Archive

end TypedStore
