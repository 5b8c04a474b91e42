/-
  TypedStore/Proofs/Store/Isolation.lean
  ======================================
  **Stores in one directory do not interfere.**

  Stores of several numbers are opened in one directory, asked to do things, and closed, in any order.
  As long as file operations succeed, what comes of the deeds of one number, and what is in its files
  afterwards, is the same as if the deeds of all other numbers had been left out
  (`instances_do_not_interfere`). There is one thing that stores can do for each other: the first to be
  opened makes the directory, if it is missing, and where the path leads through something missing to
  what is there, that uncovers the defaults of the others (`opening_uncovers_defaults`).

  The run of all deeds is followed together with that of the deeds of the one number. What holds of the
  two (`Phase`) is that nothing has happened yet, or that others are ahead and have made the directory
  already, or that the disks agree in the territory of the one number, where also the same stores are
  open.
-/
import TypedStore.Proofs.Store.Deeds

namespace TypedStore.Store

variable {ι : Type} [DecidableEq ι] {dir : Path} {a : Nat} {start made : Disk}
  {o o' : OpenStores (Nat × ι)}

/-! ### Two runs side by side -/

/-- The disks agree in the territory of a number, and the same stores of that number are open. -/
structure Joined (dir : Path) (a : Nat) (o o' : OpenStores (Nat × ι)) : Prop where
  standing : Archive.Standing (FileSet.territory ⟨dir, a⟩) dir o.disk o'.disk
  stores : ∀ i, o.stores (a, i) = o'.stores (a, i)
  sound : Sound dir o

/-- What holds of a run of all deeds and of one of the deeds of one number only. -/
inductive Phase (dir : Path) (a : Nat) (start : Disk) (o o' : OpenStores (Nat × ι)) : Prop where
  /-- Nothing has happened yet. -/
  | before :
    start.bytesAt (FileSet.defaults ⟨dir, a⟩).place = none → o = closed start → o' = closed start →
      Phase dir a start o o'
  /-- Others have made the directory, and of this number no store has been opened. -/
  | ahead {made : Disk} :
    start.bytesAt (FileSet.defaults ⟨dir, a⟩).place = none →
      start.makeDirectories dir = (.ok (), made) →
        Archive.Standing (FileSet.territory ⟨dir, a⟩) dir o.disk made →
          (∀ i, o.stores (a, i) = none) → Sound dir o → o' = closed start → Phase dir a start o o'
  | joined : Joined dir a o o' → Phase dir a start o o'

/-- The same store, or none, under a handle of both. -/
theorem joined_put (hstores : ∀ i, o.stores (a, i) = o'.stores (a, i)) {i : ι}
    {disk disk' : Disk} {left : Option OpenStore}
    (hdisk : Archive.Standing (FileSet.territory ⟨dir, a⟩) dir disk disk')
    (hsound : Sound dir (o.put (a, i) disk left)) :
    Joined dir a (o.put (a, i) disk left) (o'.put (a, i) disk' left) := by
  refine ⟨hdisk, ?_, hsound⟩
  intro j
  by_cases heq : j = i
  · rw [heq, OpenStores.put_stores_self, OpenStores.put_stores_self]
  · have hne : (a, j) ≠ (a, i) := fun hpair => heq (Prod.mk.inj hpair).2
    rw [OpenStores.put_stores_of_ne hne, OpenStores.put_stores_of_ne hne]
    exact hstores j

/-- Openings that have the same outcome, on disks that agree in the territory afterwards. -/
theorem opening_joined (o' : OpenStores (Nat × ι)) {settings : Settings} {i : ι}
    (hsound : Sound dir o) (hstores : ∀ i, o.stores (a, i) = o'.stores (a, i))
    (hsame : (openWith dir { settings with instanceId := a }).outcome ⟨o.disk, []⟩ =
      (openWith dir { settings with instanceId := a }).outcome ⟨o'.disk, []⟩)
    (hafter : Archive.Standing (FileSet.territory ⟨dir, a⟩) dir
      ((openWith dir { settings with instanceId := a }).after ⟨o.disk, []⟩).state
      ((openWith dir { settings with instanceId := a }).after ⟨o'.disk, []⟩).state) :
    ((⟨a, i, .opening settings⟩ : Deed ι).perform dir o).1 =
        ((⟨a, i, .opening settings⟩ : Deed ι).perform dir o').1 ∧
      Joined dir a ((⟨a, i, .opening settings⟩ : Deed ι).perform dir o).2
        ((⟨a, i, .opening settings⟩ : Deed ι).perform dir o').2 := by
  cases hopen : (openWith dir { settings with instanceId := a }).outcome ⟨o.disk, []⟩ with
  | ok result =>
    rw [Deed.perform_opened hopen, Deed.perform_opened (hsame.symm.trans hopen)]
    exact ⟨rfl, joined_put hstores hafter (sound_of_opening hsound hopen _)⟩
  | error fault =>
    rw [Deed.perform_refused hopen, Deed.perform_refused (hsame.symm.trans hopen)]
    exact ⟨rfl, hafter, hstores, hsound⟩

/-- Where the disks agree in the territory, a deed of the number comes to the same in both runs. -/
theorem Joined.own (h : Joined dir a o o') (deed : Deed ι) (hid : deed.id = a) :
    (deed.perform dir o).1.FailsBy FileSet.IsDiskFault ∨
      ((deed.perform dir o).1 = (deed.perform dir o').1 ∧
        Joined dir a (deed.perform dir o).2 (deed.perform dir o').2) := by
  obtain ⟨id, i, act⟩ := deed
  obtain rfl : id = a := hid
  have hfiles := FileSet.inside_territory ⟨dir, id⟩
  cases act with
  | opening settings =>
    have huniform : (openWith dir { settings with instanceId := id }).Uniform
        (openMayFail FileSet.IsDiskFault) (Archive.Standing _ dir) := openWith_uniform hfiles
    rcases huniform ⟨o.disk, []⟩ ⟨o'.disk, []⟩ h.standing with
      ⟨fault, hopen, hfault⟩ | ⟨hsame, hafter⟩
    · rw [Deed.perform_refused hopen]
      exact .inl hfault
    · exact .inr (opening_joined o' h.sound h.stores hsame hafter)
  | closing =>
    refine .inr ⟨?_, joined_put h.stores h.standing (h.sound.put nofun)⟩
    exact congrArg (fun opened => Outcome.closed opened.isSome) (h.stores i)
  | working work =>
    cases hopened : o.stores (id, i) with
    | none =>
      simp only [Deed.perform, hopened, (h.stores i).symm.trans hopened]
      exact .inr ⟨trivial, h⟩
    | some opened =>
      simp only [Deed.perform, hopened, (h.stores i).symm.trans hopened]
      refine (work.uniform (h.sound id i opened hopened) hfiles h.standing).imp_right ?_
      rintro ⟨hsame, hleft, hdisk, honfiles⟩
      rw [← hleft]
      exact ⟨hsame, joined_put h.stores hdisk (h.sound.put honfiles)⟩

/-- A deed of another number, in the one run only. -/
theorem Phase.other (h : Phase dir a start o o') (deed : Deed ι) (hid : deed.id ≠ a) :
    (deed.perform dir o).1.FailsBy FileSet.IsDiskFault ∨
      Phase dir a start (deed.perform dir o).2 o' := by
  cases h with
  | before hdefaults ho ho' =>
    subst ho ho'
    refine (deed.perform_first dir start).imp_right ?_
    rintro (hsame | hbegun)
    · exact .before hdefaults hsame rfl
    · have hnone := hbegun.stores a (Ne.symm hid)
      rcases hbegun.founded with hstart | ⟨hmake, -⟩
      · have hstanding : Archive.Standing (FileSet.territory ⟨dir, a⟩) dir
            (deed.perform dir (closed start)).2.disk start :=
          ⟨by rw [hstart]; exact .refl _ _, hbegun.isDirectory⟩
        exact .joined ⟨hstanding, hnone, hbegun.sound⟩
      · exact .ahead hdefaults hmake ⟨.refl _ _, hbegun.isDirectory⟩ hnone hbegun.sound rfl
  | ahead hdefaults hmake hstanding hnone hsound ho' =>
    refine (deed.perform_other hid hsound hstanding.2).imp_right fun hleft => ?_
    exact .ahead hdefaults hmake ⟨hleft.agree.symm.trans hstanding.1, hleft.isDirectory⟩
      (fun i => (hleft.stores i).trans (hnone i)) hleft.sound ho'
  | joined h =>
    refine (deed.perform_other hid h.sound h.standing.2).imp_right fun hleft => ?_
    exact .joined ⟨⟨hleft.agree.symm.trans h.standing.1, hleft.isDirectory⟩,
      fun i => (hleft.stores i).trans (h.stores i), hleft.sound⟩

/-- While others are ahead, a store of the number is opened in both runs. -/
theorem opening_ahead {settings : Settings} {i : ι}
    (hdefaults : start.bytesAt (FileSet.defaults ⟨dir, a⟩).place = none)
    (hmake : start.makeDirectories dir = (.ok (), made))
    (hstanding : Archive.Standing (FileSet.territory ⟨dir, a⟩) dir o.disk made)
    (hnone : ∀ i, o.stores (a, i) = none) (hsound : Sound dir o) :
    let deed : Deed ι := ⟨a, i, .opening settings⟩
    (deed.perform dir o).1.FailsBy FileSet.IsDiskFault ∨
      ((deed.perform dir o).1 = (deed.perform dir (closed start)).1 ∧
        Phase dir a start (deed.perform dir o).2 (deed.perform dir (closed start)).2) := by
  intro deed
  have huniform : (openWith dir { settings with instanceId := a }).Uniform
      (openMayFail FileSet.IsDiskFault) (Archive.Ahead _ dir start made) :=
    openWith_ahead (FileSet.inside_territory ⟨dir, a⟩) hmake hdefaults
  rcases huniform ⟨o.disk, []⟩ ⟨start, []⟩ (.inr ⟨hstanding, rfl⟩) with
    ⟨fault, hopen, hfault⟩ | ⟨hsame, hafter⟩
  · rw [Deed.perform_refused hopen]
    exact .inl hfault
  right
  have hjoins : ∀ hafter, (deed.perform dir o).1 = (deed.perform dir (closed start)).1 ∧
      Phase dir a start (deed.perform dir o).2 (deed.perform dir (closed start)).2 :=
    fun hafter => (opening_joined (closed start) (i := i) hsound hnone hsame hafter).imp id
      Phase.joined
  rcases hafter with hjoined | ⟨hmade, hstart⟩
  · exact hjoins hjoined
  · cases hopen : (openWith dir { settings with instanceId := a }).outcome ⟨o.disk, []⟩ with
    | ok result =>
      -- It has been opened without the directory being made, so the directory had been there.
      have hdir := (onFiles_of_openWith (Op.eq_ok_of_outcome (hsame.symm.trans hopen))).2
      rw [hstart] at hdir
      rw [Disk.makeDirectories_eq_self hdir] at hmake
      cases hmake
      rw [← hstart] at hmade
      exact hjoins hmade
    | error fault =>
      have hrefused := Deed.perform_refused (i := i) hopen
      have hrefused' := Deed.perform_refused (o := closed start) (i := i) (hsame.symm.trans hopen)
      rw [hrefused, hrefused']
      exact ⟨rfl, .ahead hdefaults hmake hmade hnone hsound (congrArg closed hstart)⟩

/-- A deed of the number, in both runs. -/
theorem Phase.own (h : Phase dir a start o o') (deed : Deed ι) (hid : deed.id = a) :
    (deed.perform dir o).1.FailsBy FileSet.IsDiskFault ∨
      ((deed.perform dir o).1 = (deed.perform dir o').1 ∧
        Phase dir a start (deed.perform dir o).2 (deed.perform dir o').2) := by
  cases h with
  | before hdefaults ho ho' =>
    subst ho ho'
    refine (deed.perform_first dir start).imp_right fun hfirst => ⟨rfl, ?_⟩
    rcases hfirst with hsame | hbegun
    · exact .before hdefaults hsame hsame
    · exact .joined ⟨⟨.refl _ _, hbegun.isDirectory⟩, fun _ => rfl, hbegun.sound⟩
  | ahead hdefaults hmake hstanding hnone hsound ho' =>
    subst ho'
    rcases deed.opening_or_idle dir with ⟨settings, hact⟩ | ⟨outcome, hidle⟩
    · obtain ⟨id, i, act⟩ := deed
      obtain rfl : id = a := hid
      obtain rfl : act = .opening settings := hact
      exact opening_ahead hdefaults hmake hstanding hnone hsound
    · rw [hidle o (hid ▸ hnone deed.handle), hidle (closed start) rfl]
      exact .inr ⟨rfl, .ahead hdefaults hmake hstanding hnone hsound rfl⟩
  | joined h => exact (h.own deed hid).imp_right fun h => ⟨h.1, .joined h.2⟩

/-! ### Whole runs -/

/-- The two runs stay side by side, and what comes of the deeds of the number is the same in both. -/
theorem Phase.run {deeds : List (Deed ι)} (h : Phase dir a start o o')
    (hfiles : ∀ entry ∈ (run dir deeds o).1, ¬ entry.2.FailsBy FileSet.IsDiskFault) :
    (run dir deeds o).1.filter (·.1.id = a) = (run dir (deeds.filter (·.id = a)) o').1 ∧
      Phase dir a start (run dir deeds o).2 (run dir (deeds.filter (·.id = a)) o').2 := by
  induction deeds generalizing o o' with
  | nil => exact ⟨rfl, h⟩
  | cons deed rest ih =>
    have hfirst : ¬ (deed.perform dir o).1.FailsBy FileSet.IsDiskFault :=
      hfiles (deed, (deed.perform dir o).1) List.mem_cons_self
    have hrest : ∀ entry ∈ (Store.run dir rest (deed.perform dir o).2).1,
        ¬ entry.2.FailsBy FileSet.IsDiskFault :=
      fun entry hentry => hfiles entry (List.mem_cons_of_mem _ hentry)
    by_cases hid : deed.id = a
    · obtain ⟨hsame, hphase⟩ := (h.own deed hid).resolve_left hfirst
      obtain ⟨hreplies, hlast⟩ := ih hphase hrest
      simp only [Store.run, List.filter_cons, hid, decide_true, ↓reduceIte, hsame, hreplies]
      exact ⟨trivial, hlast⟩
    · obtain ⟨hreplies, hlast⟩ := ih ((h.other deed hid).resolve_left hfirst) hrest
      simp only [Store.run, List.filter_cons, hid, decide_false, Bool.false_eq_true, ↓reduceIte,
        hreplies]
      exact ⟨trivial, hlast⟩

omit [DecidableEq ι] in
/-- In every phase the files of the number are the same in both runs. -/
theorem Phase.bytesAt_eq (h : Phase dir a start o o') (ending : String) :
    o.disk.bytesAt (FileSet.file ⟨dir, a⟩ ending).place =
      o'.disk.bytesAt (FileSet.file ⟨dir, a⟩ ending).place := by
  have hplace : FileSet.territory ⟨dir, a⟩ (FileSet.file ⟨dir, a⟩ ending).place :=
    .inl ⟨ending, List.prefix_rfl⟩
  cases h with
  | before hdefaults ho ho' => rw [ho, ho']
  | @ahead made hdefaults hmake hstanding hnone hsound ho' =>
    have hgrows : start.Grows made := by
      have hgrows := start.makeDirectories_grows dir
      rwa [hmake] at hgrows
    rw [ho', Disk.bytesAt_congr (hstanding.1 _ hplace)]
    exact hgrows.bytesAt_eq _
  | joined h => exact Disk.bytesAt_congr (h.standing.1 _ hplace)

/-- Stores that share a directory do not interfere. Deeds of any numbers are done in any order, and none
    tells of a file operation that has failed. The path leads to a directory already, or there are no
    defaults of the one number where it is going to lead. Then whatever comes of the deeds of that
    number, and what is in its files in the end, whatever their names end with, is the same as if only
    its deeds had been done. -/
theorem instances_do_not_interfere {deeds : List (Deed ι)}
    (hstart : start.isDirectory dir ∨
      start.bytesAt (FileSet.defaults ⟨dir, a⟩).place = none)
    (hfiles : ∀ entry ∈ (run dir deeds (closed start)).1,
      ¬ entry.2.FailsBy FileSet.IsDiskFault) :
    (run dir deeds (closed start)).1.filter (·.1.id = a) =
        (run dir (deeds.filter (·.id = a)) (closed start)).1 ∧
      ∀ ending, (run dir deeds (closed start)).2.disk.bytesAt
          (FileSet.file ⟨dir, a⟩ ending).place =
        (run dir (deeds.filter (·.id = a)) (closed start)).2.disk.bytesAt
          (FileSet.file ⟨dir, a⟩ ending).place := by
  have hphase : Phase dir a start (closed start : OpenStores (Nat × ι)) (closed start) := by
    rcases hstart with hdir | hdefaults
    · exact .joined ⟨⟨.refl _ _, hdir⟩, fun _ => rfl, sound_closed dir start⟩
    · exact .before hdefaults rfl rfl
  obtain ⟨hreplies, hlast⟩ := hphase.run hfiles
  exact ⟨hreplies, hlast.bytesAt_eq⟩

/-- Two numbers of which the one begins as the other does. Each store is given a value, and the store of
    number one is brought back to it after a second. -/
theorem instances_do_not_interfere_one_and_eleven :
    let asked (id : Nat) (task : Task) : Deed Unit := ⟨id, (), .working (.asking task)⟩
    let deeds : List (Deed Unit) := [⟨11, (), .opening {}⟩, ⟨1, (), .opening {}⟩,
      asked 11 (.put "k" (.i32 1)), asked 1 (.put "k" (.i32 2)), asked 1 (.put "l" (.i32 3)),
      asked 11 (.remove "k"), asked 1 (.restoreSnapshot 1), ⟨11, (), .closing⟩, asked 1 (.get "k")]
    let own := deeds.filter (·.id = 1)
    (Disk.empty.bytesAt (FileSet.defaults ⟨["d"], 1⟩).place = none ∧
      ∀ entry ∈ (run ["d"] deeds (closed .empty)).1, ¬ entry.2.FailsBy FileSet.IsDiskFault) ∧
    (run ["d"] deeds (closed .empty)).1.filter (·.1.id = 1) = (run ["d"] own (closed .empty)).1 ∧
    ∀ ending, (run ["d"] deeds (closed .empty)).2.disk.bytesAt
        (FileSet.file ⟨["d"], 1⟩ ending).place =
      (run ["d"] own (closed .empty)).2.disk.bytesAt (FileSet.file ⟨["d"], 1⟩ ending).place := by
  intro asked deeds own
  have hdefaults : Disk.empty.bytesAt (FileSet.defaults ⟨["d"], 1⟩).place = none := by
    decide +kernel
  have hfiles : ∀ entry ∈ (run ["d"] deeds (closed .empty)).1,
      ¬ entry.2.FailsBy FileSet.IsDiskFault := by
    decide +kernel
  exact ⟨⟨hdefaults, hfiles⟩, instances_do_not_interfere (.inr hdefaults) hfiles⟩

/-- A value has been replied. -/
def Outcome.isValue : Outcome → Bool
  | .replied (.value (.ok _)) => true
  | _ => false

/-- Defaults are found only after the directory has been made, where the path leads through something
    that is missing. Another store that is opened first makes it, so the store of number zero has a
    default that it would not have had alone. -/
theorem opening_uncovers_defaults :
    let dir : Path := ["e", "..", "d"]
    let start : Disk := (Disk.empty.set ["d"] .directory).set ["d", "kvs_0_default.json"]
      (.file (Utf8.encode "\x7b\"k\":\x7b\"t\":\"i32\",\"v\":7\x7d\x7d"))
    let deeds : List (Deed Unit) := [⟨1, (), .opening {}⟩, ⟨0, (), .opening {}⟩,
      ⟨0, (), .working (.querying (.getDefault "k"))⟩]
    let own := deeds.filter (·.id = 0)
    (∀ entry ∈ (run dir deeds (closed start)).1, ¬ entry.2.FailsBy FileSet.IsDiskFault) ∧
    (∀ entry ∈ (run dir own (closed start)).1, ¬ entry.2.FailsBy FileSet.IsDiskFault) ∧
    (run dir deeds (closed start)).1.filter (·.1.id = 0) ≠ (run dir own (closed start)).1 := by
  intro dir start deeds own
  refine ⟨by decide +kernel, by decide +kernel, ?_⟩
  intro hsame
  have hvalues := congrArg (List.map fun entry : Deed Unit × Outcome => entry.2.isValue) hsame
  revert hvalues
  decide +kernel

end TypedStore.Store
