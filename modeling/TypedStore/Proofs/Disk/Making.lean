/-
  TypedStore/Proofs/Disk/Making.lean
  ==================================
  **Making directories twice.**

  What could not be made at first is tried again and fails in the same way, and nothing more is made
  (`makeDirectories_twice`). This takes a tree, and a path that does not lead up from something that is
  missing: such a path leads elsewhere the second time, through a directory which was made the first
  time, to something that could not be seen then.
-/
import TypedStore.Proofs.Disk.Descent

namespace TypedStore

namespace Path

theorem withoutSlash_of_slashes {front slashes : Path} (h : ∀ part ∈ slashes, part = "") :
    withoutSlash (front ++ slashes) = front.withoutSlash := by
  have hall : ∀ part ∈ slashes.reverse, decide (part = "") = true := fun part hpart => by
    simpa using h part (List.mem_reverse.1 hpart)
  rw [withoutSlash, List.reverse_append, List.dropWhile_append_of_pos hall, withoutSlash]

/-- What a path begins with leads no further without the slashes at the ends. -/
theorem withoutSlash_mono {front path : Path} (h : front <+: path) :
    front.withoutSlash <+: path.withoutSlash := by
  obtain ⟨slashes, hslashes, heq⟩ := path.eq_withoutSlash_append
  rcases List.prefix_or_prefix_of_prefix h path.withoutSlash_isPrefix with hshort | ⟨rest, rfl⟩
  · exact front.withoutSlash_isPrefix.trans hshort
  · obtain ⟨more, hmore⟩ := h
    have hrest : ∀ part ∈ rest, part = "" := by
      intro part hpart
      refine hslashes part ?_
      rw [← List.append_cancel_left ((List.append_assoc _ _ _).symm.trans (hmore.trans heq))]
      exact List.mem_append_left more hpart
    rw [withoutSlash_of_slashes hrest]
    exact withoutSlash_isPrefix _

theorem withoutSlash_isPrefix_child (dir : Path) (name : String) :
    dir.withoutSlash <+: dir.child name := by
  have hbase : dir.withoutSlash = dir.base.withoutSlash := by
    rcases dir.eq_base_or with h | h
    · rw [← h]
    · conv => lhs; rw [h]
      exact withoutSlash_of_slashes (by simp)
  rw [hbase]
  exact dir.base.withoutSlash_isPrefix.trans (List.prefix_append _ _)

/-! ### The directories above -/

theorem trimmed_isPrefix (path : Path) : path.trimmed <+: path := by
  have hsuffix := List.dropWhile_suffix (l := path.reverse) fun part => decide (part = "" ∨ part = ".")
  exact List.reverse_suffix.1 (by rwa [trimmed, List.reverse_reverse])

theorem prefix_of_mem_above (dir : Path) : ∀ path ∈ dir.above, path <+: dir := by
  intro path hpath
  obtain ⟨length, -, rfl⟩ := List.mem_map.1 (List.mem_filter.1 hpath).1
  exact (List.take_prefix length dir.trimmed).trans dir.trimmed_isPrefix

/-- The deepest directory comes first. -/
theorem above_descends (dir : Path) : dir.above.Pairwise fun path next => next <+: path := by
  refine List.Pairwise.filter _ (List.pairwise_map.2 (List.pairwise_reverse.2 ?_))
  refine List.pairwise_lt_range.imp ?_
  intro shorter longer hlt
  exact List.take_prefix_take_left (Nat.le_of_lt hlt)

end Path

namespace Disk

variable {disk other : Disk} {dir path : Path} {fault : DiskFault} {above : List Path}

/-! ### Making one after the other -/

theorem makeFirst_of_ne_notFound (h : disk.makeDirectory path ≠ .error .notFound) :
    disk.makeFirst (path :: above) = disk.ensureDirectory path := by
  rw [makeFirst]
  split
  · next heq => exact absurd heq h
  · rfl

section Missing

variable (hmissing : disk.makeDirectory path = .error .notFound)
include hmissing

theorem makeFirst_of_above {u : Unit} (h : disk.makeFirst above = (.ok u, other)) :
    disk.makeFirst (path :: above) = other.ensureDirectory path := by
  rw [makeFirst, hmissing]
  dsimp only
  rw [h]

theorem makeFirst_of_not_above (h : disk.makeFirst above = (.error fault, other)) :
    disk.makeFirst (path :: above) = (.error fault, other) := by
  rw [makeFirst, hmissing]
  dsimp only
  rw [h]

end Missing

theorem ensureDirectory_eq_error (h : disk.ensureDirectory path = (.error fault, other)) :
    disk.makeDirectory path = .error fault ∧ disk.isDirectory path = false ∧ other = disk := by
  unfold ensureDirectory at h
  cases hmake : disk.makeDirectory path with
  | ok made =>
    rw [hmake] at h
    cases h
  | error reason =>
    cases hdir : disk.isDirectory path with
    | true => simp [hmake, hdir] at h
    | false =>
      simp only [hmake, hdir] at h
      cases h
      exact ⟨rfl, rfl, rfl⟩

/-- What is not found when a directory is made is on the path that leads to it. -/
theorem missing_of_makeDirectory (h : disk.makeDirectory path = .error .notFound) :
    Sayable path ∧ path.withoutSlash.foldlM disk.follow [] = .error .notFound := by
  have hsayable : Sayable path := by
    rw [← checkPath_eq_ok_iff]
    cases hcheck : checkPath path with
    | ok _ => rfl
    | error fault =>
      rw [makeDirectory, hcheck] at h
      cases h
      exact absurd hcheck (checkPath_ne_notFound path)
  refine ⟨hsayable, ?_⟩
  by_cases hwalks : disk.Walks [] path.withoutSlash
  · rw [makeDirectory_of_walks hsayable hwalks] at h
    split at h <;> cases h
  · obtain ⟨reason, hreason⟩ := exists_follow_error hwalks
    rw [makeDirectory_of_not_walks hsayable hreason] at h
    cases h
    exact hreason

theorem ensureDirectory_of_not_walks (h : Sayable path)
    (hfault : path.withoutSlash.foldlM disk.follow [] = .error fault) :
    disk.ensureDirectory path = (.error fault, disk) := by
  have hnodir : ¬ disk.isDirectory path := fun hdir =>
    not_walks_of_follow_error hfault (walks_withoutSlash (isDirectory_eq_true_iff.1 hdir).1.2)
  rw [ensureDirectory, makeDirectory_of_not_walks h hfault]
  simp [hnodir]

/-- What cannot be made is in the way of all that is below it. Something may have been missing there at
    first, and may be no more; but then it fails for the reason for which the directory was not made. -/
theorem follow_of_makeFirst_error {front longer : Path} (htree : disk.IsTree)
    (hdescends : disk.Descends longer) (hgrows : disk.Grows other) (hsayable : Sayable front)
    (hfront : front.withoutSlash <+: longer)
    (hmissing : longer.foldlM disk.follow [] = .error .notFound)
    (hmake : other.makeFirst (front :: above) = (.error fault, other)) :
    longer.foldlM other.follow [] = .error .notFound ∨
      fault ≠ .notFound ∧ longer.foldlM other.follow [] = .error fault := by
  by_cases hwalks : other.Walks [] front.withoutSlash
  · -- Then a file is in the way, and it has been there before.
    exfalso
    have hmade := makeDirectory_of_walks hsayable hwalks
    have hne : other.makeDirectory front ≠ .error .notFound := by
      rw [hmade]
      split <;> exact nofun
    rw [makeFirst_of_ne_notFound hne] at hmake
    obtain ⟨hfault, hnodir, -⟩ := ensureDirectory_eq_error hmake
    cases hentry : other.lookup? front.place with
    | none => simp [hmade, hentry] at hfault
    | some entry =>
      cases entry with
      | directory =>
        have hdir : other.isDirectory front := isDirectory_eq_true_iff.2
          ⟨⟨hsayable, walks_of_withoutSlash hwalks hentry⟩, hentry⟩
        rw [hnodir] at hdir
        cases hdir
      | file bytes =>
        have hbefore : disk.lookup? front.place = some (.file bytes) := by
          rcases hgrows front.place with hsame | ⟨-, hdir⟩
          · rw [← hsame, hentry]
          · rw [hentry] at hdir
            cases hdir
        rw [← Path.place_withoutSlash] at hbefore
        exact hdescends.not_file htree hfront hmissing hbefore
  · obtain ⟨reason, hreason⟩ := exists_follow_error hwalks
    have hfollow := foldlM_follow_of_isPrefix hfront hreason
    by_cases hnot : reason = .notFound
    · exact .inl (hnot ▸ hfollow)
    · have hmade := makeDirectory_of_not_walks hsayable hreason
      rw [makeFirst_of_ne_notFound (by simpa [hmade] using hnot)] at hmake
      obtain ⟨hfault, -⟩ := ensureDirectory_eq_error hmake
      cases hmade.symm.trans hfault
      exact .inr ⟨hnot, hfollow⟩

/-- Where the directory above could not be made, this one cannot be made either. -/
theorem makeFirst_again_of_not_above {next : Path} (htree : disk.IsTree)
    (hdescends : disk.Descends path) (hgrows : disk.Grows other) (hnext : next <+: path)
    (hmake : disk.makeDirectory path = .error .notFound)
    (hagain : other.makeFirst (next :: above) = (.error fault, other)) :
    other.makeFirst (path :: next :: above) = (.error fault, other) := by
  obtain ⟨hsayable, hmissing⟩ := missing_of_makeDirectory hmake
  have hdown := hdescends.front path.withoutSlash_isPrefix
  rcases follow_of_makeFirst_error htree hdown hgrows (hsayable.front hnext)
    (Path.withoutSlash_mono hnext) hmissing hagain with hstill | ⟨hnot, hfault⟩
  · exact makeFirst_of_not_above (makeDirectory_of_not_walks hsayable hstill) hagain
  · have hmade := makeDirectory_of_not_walks hsayable hfault
    rw [makeFirst_of_ne_notFound (by simpa [hmade] using hnot)]
    exact ensureDirectory_of_not_walks hsayable hfault

theorem makeFirst_twice {paths : List Path} (htree : disk.IsTree) (hdescends : disk.Descends dir)
    (hfronts : ∀ path ∈ paths, path <+: dir) (hdescend : paths.Pairwise fun p q => q <+: p)
    {result : Except DiskFault Unit} (h : disk.makeFirst paths = (result, other)) :
    other.makeFirst paths = (result, other) := by
  -- From the top down: what becomes of a directory the second time depends on the one above it.
  induction paths generalizing result other with
  | nil =>
    cases h
    rfl
  | cons path above ih =>
    obtain ⟨hbelow, hrest⟩ := List.pairwise_cons.1 hdescend
    have hself : ∀ disk' : Disk, disk'.ensureDirectory path = (.ok (), other) →
        other.makeFirst (path :: above) = (.ok (), other) := fun disk' hensure =>
      makeFirst_eq_self (isDirectory_of_ensureDirectory hensure) above
    by_cases hmake : disk.makeDirectory path = .error .notFound
    · cases hfirst : disk.makeFirst above with
      | mk made between =>
        have hagain := ih (fun path hpath => hfronts path (List.mem_cons_of_mem _ hpath)) hrest hfirst
        cases made with
        | ok _ =>
          rw [makeFirst_of_above hmake hfirst] at h
          cases result with
          | ok _ => exact hself between h
          | error fault =>
            obtain ⟨hfault, -, rfl⟩ := ensureDirectory_eq_error h
            by_cases hnot : fault = .notFound
            · rw [makeFirst_of_above (hnot ▸ hfault) hagain, h]
            · rw [makeFirst_of_ne_notFound (by simpa [hfault] using hnot), h]
        | error fault =>
          obtain ⟨rfl, rfl⟩ := Prod.mk.inj ((makeFirst_of_not_above hmake hfirst).symm.trans h)
          cases above with
          | nil => cases hfirst
          | cons next rest =>
            have hgrows := (disk.makeFirst_growsAlong (next :: rest)).grows
            rw [hfirst] at hgrows
            exact makeFirst_again_of_not_above htree
              (hdescends.front (hfronts path List.mem_cons_self)) hgrows
              (hbelow next List.mem_cons_self) hmake hagain
    · rw [makeFirst_of_ne_notFound hmake] at h
      cases result with
      | ok _ => exact hself disk h
      | error fault =>
        obtain ⟨-, -, rfl⟩ := ensureDirectory_eq_error h
        rw [makeFirst_of_ne_notFound hmake]
        exact h

/-- What has been made stays, and what could not be made cannot be made the second time, for the same
    reason. -/
theorem makeDirectories_twice (htree : disk.IsTree) (hup : ¬ disk.LeadsUpFromMissing dir)
    {result : Except DiskFault Unit} (h : disk.makeDirectories dir = (result, other)) :
    other.makeDirectories dir = (result, other) := by
  by_cases hmake : disk.makeDirectory dir = .error .notFound
  · obtain ⟨hsayable, hmissing⟩ := missing_of_makeDirectory hmake
    obtain ⟨slashes, hslashes, heq⟩ := dir.eq_withoutSlash_append
    have hdescends : disk.Descends dir := by
      rw [heq]
      refine (descends_of_missing htree ?_ (hsayable.front dir.withoutSlash_isPrefix) hmissing).append ?_
      · exact fun h => hup (h.mono dir.withoutSlash_isPrefix)
      · exact fun hmem => absurd (hslashes _ hmem) (by decide)
    exact makeFirst_twice htree hdescends
      (List.forall_mem_cons.2 ⟨List.prefix_rfl, dir.prefix_of_mem_above⟩)
      (List.pairwise_cons.2 ⟨dir.prefix_of_mem_above, dir.above_descends⟩) h
  · rw [makeDirectories, makeFirst_of_ne_notFound hmake] at h
    cases result with
    | ok _ => exact makeDirectories_eq_self (isDirectory_of_ensureDirectory h)
    | error fault =>
      obtain ⟨-, -, rfl⟩ := ensureDirectory_eq_error h
      rw [makeDirectories, makeFirst_of_ne_notFound hmake, h]

/-- Directories have been made on the way to what is in this one, and nothing in it. -/
theorem GrowsAlong.lookup?_child {name : String} (h : disk.GrowsAlong (dir :: dir.above) other)
    (hdescends : disk.Descends dir) (hname : Path.IsName name)
    (hbefore : disk.lookup? (dir.child name).place = none) :
    other.lookup? (dir.child name).place = none := by
  rcases h (dir.child name).place with hsame | ⟨-, -, path, hpath, heq⟩
  · rw [hsame, hbefore]
  · have hfront : path <+: dir :=
      (List.mem_cons.1 hpath).elim (· ▸ List.prefix_rfl) (dir.prefix_of_mem_above path)
    have hshort := (hdescends.place_isPrefix hfront (heq ▸ hbefore)).length_le
    rw [← heq, Path.place_child dir hname, List.length_append, List.length_singleton] at hshort
    omega

/-- What is not found in a directory that is missing is not found when the directory has been made; and
    if it could not be made, looking fails for the same reason, or nothing is found again. -/
theorem read_child_again {name : String} {result : Except DiskFault Unit} (htree : disk.IsTree)
    (hup : ¬ disk.LeadsUpFromMissing dir) (hname : Path.IsName name)
    (hlength : name.utf8ByteSize ≤ Path.maxNameBytes) (hnodir : ¬ disk.isDirectory dir)
    (hread : disk.read (dir.child name) = .error .notFound)
    (hmake : disk.makeDirectories dir = (result, other)) :
    other.read (dir.child name) = .error .notFound ∨
      ∃ fault, result = .error fault ∧ other.read (dir.child name) = .error fault := by
  have hsayable := sayable_of_notFound hread
  have hmissing : (dir.child name).foldlM disk.follow [] = .error .notFound := by
    have hwalks : ¬ disk.Walks [] (dir.child name) := fun hwalks =>
      hnodir (isDirectory_eq_true_iff.2 (Reaches.dir ⟨hsayable, hwalks⟩))
    obtain ⟨reason, hreason⟩ := exists_follow_error hwalks
    cases hread.symm.trans (read_of_follow_error hsayable hreason)
    exact hreason
  have hchild : disk.Descends (dir.child name) :=
    descends_of_missing htree (fun h => hup (h.of_child hname.ne_dots)) hsayable hmissing
  have hgrows := disk.makeDirectories_growsAlong dir
  rw [hmake] at hgrows
  cases result with
  | ok _ =>
    have hdir := isDirectory_of_makeDirectories hmake
    obtain ⟨hbase, hplace⟩ := isDirectory_eq_true_iff.1 (isDirectory_front hdir dir.base_isPrefix)
    rw [Path.place_base] at hplace
    left
    rw [read, find_of_reaches ⟨hsayable, Walks.child hbase.2 hplace hlength⟩,
      hgrows.lookup?_child hchild.of_child hname (hchild.lookup?_eq_none htree hmissing)]
    rfl
  | error fault =>
    have hfront := dir.withoutSlash_isPrefix_child name
    have hagain := makeDirectories_twice htree hup hmake
    rcases follow_of_makeFirst_error htree hchild hgrows.grows hsayable.dir hfront hmissing hagain
      with hstill | ⟨-, hfault⟩
    · exact .inl (read_of_follow_error hsayable hstill)
    · exact .inr ⟨fault, rfl, read_of_follow_error hsayable hfault⟩

end Disk

end TypedStore
