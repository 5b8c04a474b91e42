/-
  TypedStore/Proofs/Archive/Numbering.lean
  ========================================
  **Which commit a generation is, when openings differ in how many are kept.**

  The commits of a run are numbered from one on, over all openings. A commit that keeps some generations
  puts itself in front of those there are, and takes the last that it keeps away from them (`pile`):
  generations beyond, which an earlier opening has left, stay where they are. So the generations have no
  gap, they are from newer to older commits, and the first is the last commit
  (`OpenArchives.generations_are_numbered`).
-/
import TypedStore.Proofs.Archive.History
import TypedStore.Proofs.Archive.Sessions

namespace TypedStore.Archive

/-! ### Commits and their numbers -/

/-- How many generations a commit keeps, and its entries. -/
abbrev Commit := Nat × Json.RawObject

/-- The commits among some deeds. -/
def commits (deeds : List Deed) : List Commit :=
  deeds.filterMap fun deed =>
    match deed with
    | .opened _ => none
    | .committed keep entries => some (keep, entries)

/-- The numbers and entries of the generations that commits leave, the latest commit being the first
    of the list. -/
def pile : List Commit → List (Nat × Json.RawObject)
  | [] => []
  | (keep, entries) :: earlier =>
    (earlier.length + 1, entries) :: (pile earlier).eraseIdx (keep - 1)

variable {made : List Commit} {keep k : Nat} {entries : Json.RawObject}

/-- The generations are commits, under their numbers. -/
theorem commit_of_mem_pile (h : (k, entries) ∈ pile made) :
    1 ≤ k ∧ k ≤ made.length ∧ ∃ keep, made.reverse[k - 1]? = some (keep, entries) := by
  induction made with
  | nil => cases h
  | cons commit earlier ih =>
    obtain ⟨last, newest⟩ := commit
    rw [List.reverse_cons]
    rcases List.mem_cons.1 h with heq | hmem
    · cases heq
      refine ⟨Nat.le_add_left 1 _, Nat.le_refl _, last, ?_⟩
      simp
    · obtain ⟨hone, hle, keep, hcommit⟩ := ih (List.mem_of_mem_eraseIdx hmem)
      refine ⟨hone, Nat.le_succ_of_le hle, keep, ?_⟩
      rw [List.getElem?_append_left]
      · exact hcommit
      · rw [List.length_reverse]
        omega

/-- The generations are from newer to older commits. -/
theorem pile_decreasing (made : List Commit) : ((pile made).map (·.1)).Pairwise (· > ·) := by
  induction made with
  | nil => exact .nil
  | cons commit earlier ih =>
    obtain ⟨last, newest⟩ := commit
    rw [pile, List.map_cons, List.pairwise_cons, ← List.eraseIdx_map]
    refine ⟨?_, ih.sublist (List.eraseIdx_sublist _ _)⟩
    intro k hk
    obtain ⟨⟨number, entries⟩, hmem, rfl⟩ := List.mem_map.1 (List.mem_of_mem_eraseIdx hk)
    obtain ⟨-, hle, -⟩ := commit_of_mem_pile hmem
    exact Nat.lt_succ_of_le hle

/-- The current generation is the last commit. -/
theorem head?_pile (made : List Commit) :
    ((pile made).map (·.1)).head? = if made = [] then none else some made.length := by
  cases made with
  | nil => rfl
  | cons commit earlier => simp [pile]

/-- A commit that keeps an older generation keeps the commit before. -/
theorem second_pile (hkeep : 2 ≤ keep) {earlier : List Commit} (hearlier : earlier ≠ []) :
    ((pile ((keep, entries) :: earlier)).map (·.1))[1]? = some earlier.length := by
  have hsecond : ((pile earlier).map (·.1))[0]? = some earlier.length := by
    rw [← List.head?_eq_getElem?, head?_pile, if_neg hearlier]
  have hkept : 0 < keep - 1 := by omega
  rw [pile, List.map_cons, List.getElem?_cons_succ, ← List.eraseIdx_map, List.getElem?_eraseIdx,
    if_pos hkept]
  exact hsecond

/-! ### Following the files -/

namespace OpenArchives

variable {files : FileSet} {start o next : OpenArchives Unit} {deeds fresh : List Deed}
  {archive : Archive} {i : Nat}

/-- The entries of the generations that some deeds leave. -/
def left (deeds : List Deed) : List Json.RawObject := (pile (commits deeds)).map (·.2)

/-- The files are what the deeds leave, and the archive that is open, if any, has committed the current
    generation. -/
structure Leaves (files : FileSet) (deeds : List Deed) (o : OpenArchives Unit) : Prop where
  isDirectory : o.disk.isDirectory files.dir
  holds : files.Holds o.disk (.ofEntries (left deeds))
  archive : ∀ archive, o.archives () = some archive → archive.files = files ∧ archive.keep ≠ 0 ∧
    archive.committed = (left deeds).head?.map (·.toBytes)

/-- What is found in the data file of the current generation. -/
theorem committed_of_holds {disk : Disk} {generations : List Json.RawObject}
    {committed : Option Bytes} (h : files.Holds disk (.ofEntries generations))
    (hread : FileSet.readIfPresent (files.data 0) disk = .ok committed) :
    committed = generations.head?.map (·.toBytes) := by
  cases generations with
  | nil =>
    cases committed with
    | none => rfl
    | some bytes =>
      have hdata := FileSet.readIfPresent_eq_some_iff.1 hread
      rw [FileSet.data_eq, FileSet.read_slot_eq_ok_iff, h.held_eq] at hdata
      exact absurd hdata.2 (by simp [FileSet.Contents.ofEntries])
  | cons newest older =>
    have hdata : disk.read (files.data 0) = .ok newest.toBytes :=
      FileSet.read_ofEntries h rfl .data
    rw [FileSet.readIfPresent_eq_some_iff.2 hdata] at hread
    cases hread
    rfl

theorem Step.leaves (h : o.Step files fresh next) (ho : Leaves files deeds o) :
    Leaves files (fresh ++ deeds) next := by
  rcases h.cases_on_disk ho.isDirectory with
    ⟨⟨⟩, options, events, archive, t, rfl, -, hload, ht, rfl⟩ | ⟨rfl, hdisk, harchives⟩ |
      ⟨⟨⟩, archive, c, events, entries, r, rfl, hopen, -, hcommit, rfl⟩
  · refine ⟨ho.isDirectory, ho.holds, ?_⟩
    intro archive' hopen
    rw [put_archives_self] at hopen
    cases hopen
    obtain ⟨disk, committed, entries, hkeep, -, hread, -, rfl, rfl⟩ := load_eq_ok_iff.1 hload
    obtain rfl : disk = o.disk := ht
    exact ⟨rfl, hkeep, committed_of_holds ho.holds hread⟩
  · refine ⟨?_, ?_, fun archive hopen => ho.archive archive (harchives () archive hopen)⟩
    · rw [hdisk]
      exact ho.isDirectory
    · rw [hdisk]
      exact ho.holds
  · obtain ⟨hfiles, hkeep, hcommitted⟩ := ho.archive archive hopen
    rw [hfiles, hcommitted] at hcommit
    obtain ⟨hholds, hdirs⟩ := FileSet.commit_holds (s := ⟨o.disk, events⟩) ho.holds hcommit
    have hleft : left ([.committed archive.keep entries] ++ deeds) =
        entries :: (left deeds).eraseIdx (archive.keep - 1) := by
      change (pile ((archive.keep, entries) :: commits deeds)).map _ = _
      rw [pile, List.map_cons, left, List.eraseIdx_map]
    rw [FileSet.Contents.commit_ofEntries hkeep, ← hleft] at hholds
    refine ⟨Disk.isDirectory_mono hdirs ho.isDirectory, hholds, ?_⟩
    intro archive' hopen'
    rw [put_archives_self] at hopen'
    cases hopen'
    refine ⟨hfiles, hkeep, ?_⟩
    rw [hleft]
    rfl

theorem Run.leaves (h : Run files start deeds o) (hstart : Leaves files [] start) :
    Leaves files deeds o := by
  induction h with
  | start => exact hstart
  | step _ hstep ih => exact hstep.leaves ih

/-- Archives are opened on a directory that was empty, one at a time, and commit. There are numbers of
    commits, as many as there are generations: the pair of each generation is that of the commit with
    its number and verifies, and there is no other file. The first number is that of the last commit,
    the numbers fall, and the second is that of the commit before, if the last one has kept it. -/
theorem generations_are_numbered (hdir : start.disk.isDirectory files.dir)
    (hempty : start.disk.below files.dir.place = []) (hclosed : start.archives () = none)
    (hrun : Run files start deeds o) :
    ∃ numbers : List Nat,
      (∀ slot, o.disk.contains (files.slotPath slot) ↔
        slot.draft = false ∧ slot.generation < numbers.length) ∧
      (∀ i k, numbers[i]? = some k → ∃ keep entries, 1 ≤ k ∧
        (commits deeds).reverse[k - 1]? = some (keep, entries) ∧
        o.disk.read (files.data i) = .ok entries.toBytes ∧
        FileSet.parseVerified entries.toBytes (files.data i) (files.checksum i) o.disk =
          .ok entries) ∧
      numbers.head? = (if commits deeds = [] then none else some (commits deeds).length) ∧
      numbers.Pairwise (· > ·) ∧
      ∀ keep entries earlier, commits deeds = (keep, entries) :: earlier → 2 ≤ keep →
        earlier ≠ [] → numbers[1]? = some earlier.length := by
  have hstart : Leaves files [] start := by
    refine ⟨hdir, FileSet.holds_of_below_eq_nil hempty, ?_⟩
    intro archive hopen
    rw [hclosed] at hopen
    cases hopen
  have hholds := (hrun.leaves hstart).holds
  refine ⟨(pile (commits deeds)).map (·.1), ?_, ?_, head?_pile _, pile_decreasing _, ?_⟩
  · intro slot
    rw [FileSet.contains_ofEntries_iff hholds, left, List.length_map, List.length_map]
  · intro i k hk
    rw [List.getElem?_map, Option.map_eq_some_iff] at hk
    obtain ⟨⟨number, entries⟩, hi, rfl⟩ := hk
    obtain ⟨hone, -, keep, hcommit⟩ := commit_of_mem_pile (List.mem_of_getElem? hi)
    have hentries : (left deeds)[i]? = some entries := by
      rw [left, List.getElem?_map, hi]
      rfl
    exact ⟨keep, entries, hone, hcommit, FileSet.read_ofEntries hholds hentries .data,
      FileSet.parseVerified_ofEntries hholds hentries⟩
  · intro keep entries earlier hlast hkeep hearlier
    rw [hlast]
    exact second_pile hkeep hearlier

/-- Two commits that keep two generations, and after another opening one that keeps none but itself:
    generation one is the first commit. -/
theorem generations_are_numbered_reopened :
    let files : FileSet := ⟨["d"], 0⟩
    let persist (value : String) : Call := .persist (Utf8.encode "k") (Utf8.encode value)
    let start : OpenArchives Unit := ⟨Disk.empty.set ["d"] .directory, fun _ => none⟩
    let s₀ : Mounted := ⟨start.disk, ⟨files, 2, .empty, none⟩⟩
    let s₁ := ((persist "1").perform.after ⟨s₀, []⟩).state
    let s₂ := ((persist "2").perform.after ⟨s₁, []⟩).state
    let again : Mounted := ⟨s₂.disk, ⟨files, 1, .empty, s₂.archive.committed⟩⟩
    let s₃ := ((persist "3").perform.after ⟨again, []⟩).state
    let deeds := [.committed 1 s₃.archive.entries, .opened ⟨.ignored, 1⟩,
      .committed 2 s₂.archive.entries, .committed 2 s₁.archive.entries, .opened ⟨.optional, 2⟩]
    let o := (((((start.put () s₀).put () s₁).put () s₂).close ()).put () again).put () s₃
    (start.disk.isDirectory files.dir ∧ start.disk.below files.dir.place = [] ∧
      start.archives () = none ∧ Run files start deeds o) ∧
    (commits deeds).length = 3 ∧ (pile (commits deeds)).map (·.1) = [3, 1] ∧
    ∃ numbers : List Nat, numbers.head? = some 3 ∧
      (∀ slot, o.disk.contains (files.slotPath slot) ↔
        slot.draft = false ∧ slot.generation < numbers.length) := by
  intro files persist start s₀ s₁ s₂ again s₃ deeds o
  have hdir : start.disk.isDirectory files.dir := by decide +kernel
  have hempty : start.disk.below files.dir.place = [] := by decide +kernel
  have hload : (load files ⟨.optional, 2⟩).outcome ⟨s₀.disk, []⟩ = .ok s₀.archive := by
    decide +kernel
  have hagain : (load files ⟨.ignored, 1⟩).outcome ⟨again.disk, []⟩ = .ok again.archive := by
    decide +kernel
  have hdir' : again.disk.isDirectory files.dir := by decide +kernel
  have hcall₁ : (persist "1").perform.outcome ⟨s₀, []⟩ = .ok () := by decide +kernel
  have hcall₂ : (persist "2").perform.outcome ⟨s₁, []⟩ = .ok () := by decide +kernel
  have hcall₃ : (persist "3").perform.outcome ⟨again, []⟩ = .ok () := by decide +kernel
  have hkeep : s₁.archive.keep = 2 := by decide +kernel
  have ht₁ : ((persist "1").perform.after ⟨s₀, []⟩).state = s₁ := rfl
  have ht₂ : ((persist "2").perform.after ⟨s₁, []⟩).state = s₂ := rfl
  have ht₃ : ((persist "3").perform.after ⟨again, []⟩).state = s₃ := rfl
  have hdisk : s₂.disk = again.disk := by decide +kernel
  have hkeep' : again.archive.keep = 1 := rfl
  have hrun : Run files start deeds o := by
    clear_value s₃ again s₂ s₁
    have hfirst : Run files start [.opened ⟨.optional, 2⟩] (start.put () s₀) :=
      Run.start.opened rfl hdir rfl hload
    have htwo := (hfirst.committed (persist "1") id hcall₁ ht₁ rfl).committed (persist "2") id
      hcall₂ ht₂ hkeep
    have hreopened := Run.opened (.step htwo .closed) hdisk hdir' (close_archives_self _ ()) hagain
    exact hreopened.committed (persist "3") id hcall₃ ht₃ hkeep'
  obtain ⟨numbers, hfiles, -, hhead, -, -⟩ := generations_are_numbered hdir hempty rfl hrun
  exact ⟨⟨hdir, hempty, rfl, hrun⟩, by decide +kernel, by decide +kernel, numbers, hhead, hfiles⟩

end OpenArchives

end TypedStore.Archive
