/-
  TypedStore/Proofs/Store/Deeds.lean
  ==================================
  **Stores of several numbers in one directory.**

  A deed is something that is done under a handle of the stores of one number: a store is opened, is
  asked to do something, or is closed. Deeds are done one after the other, of whatever numbers
  (`run`). The stores that are open are always stores on the files of their numbers (`Sound`), and a
  deed of the one number leaves the territory and the stores of the others alone
  (`Deed.perform_other`).
-/
import TypedStore.Proofs.Store.FirstOpening

namespace TypedStore.Store

/-! ### Deeds -/

/-- What may be done with a store that is open. -/
inductive Work where
  /-- It is given more defaults; a store that refuses them is gone. -/
  | defaulting (entries : List (String × Value))
  | asking (task : Task)
  | querying (query : Query)

inductive Act where
  /-- A store is opened, with these settings but for the number. If it is refused, an older store under
      the handle stays. -/
  | opening (settings : Settings)
  | closing
  | working (work : Work)

/-- Something that is done under a handle of the stores of one number. -/
structure Deed (ι : Type) where
  id : Nat
  handle : ι
  act : Act

/-- What a deed comes to. -/
inductive Outcome where
  | opened (result : Except OpenFault Unit)
  | closed (present : Bool)
  | replied (reply : Reply)
  /-- No store is open under the handle. -/
  | absent

def Outcome.FailsBy (p : StorageFault → Prop) : Outcome → Prop
  | .opened (.error fault) => openMayFail p fault
  | .replied reply => reply.FailsBy p
  | _ => False

instance (p : StorageFault → Prop) [DecidablePred p] : DecidablePred (Outcome.FailsBy p)
  | .opened (.error fault) => inferInstanceAs (Decidable (openMayFail p fault))
  | .replied reply => inferInstanceAs (Decidable (reply.FailsBy p))
  | .opened (.ok _) | .closed _ | .absent => isFalse id

/-- What a work comes to, and what it leaves of the disk and of the store. -/
structure Effect where
  outcome : Outcome
  disk : Disk
  left : Option OpenStore

def Work.perform (disk : Disk) (opened : OpenStore) : Work → Effect
  | .defaulting entries =>
    match opened.store.withDefaults entries with
    | .ok store => ⟨.opened (.ok ()), disk, some { opened with store := store }⟩
    | .error fault => ⟨.opened (.error fault), disk, none⟩
  | .asking task =>
    let s : Journaled (Session Mounted) := ⟨⟨⟨disk, opened.archive⟩, opened.locks⟩, []⟩
    let t := (task.after opened.store s).state
    ⟨.replied (task.reply opened.store s), t.medium.disk,
      some ⟨opened.store, t.medium.archive, t.locks⟩⟩
  | .querying query =>
    ⟨.replied (query.reply opened.store ⟨disk, opened.archive⟩), disk, some opened⟩

variable {ι : Type} [DecidableEq ι]

/-- What a deed comes to, and the disk and the stores that are open afterwards. -/
def Deed.perform (dir : Path) (deed : Deed ι) (o : OpenStores (Nat × ι)) :
    Outcome × OpenStores (Nat × ι) :=
  match deed.act with
  | .opening settings =>
    let op := openWith dir { settings with instanceId := deed.id }
    let disk := (op.after ⟨o.disk, []⟩).state
    match op.outcome ⟨o.disk, []⟩ with
    | .ok (store, archive) =>
      (.opened (.ok ()), o.put (deed.id, deed.handle) disk (some ⟨store, archive, .empty⟩))
    | .error fault => (.opened (.error fault), ⟨disk, o.stores⟩)
  | .closing =>
    (.closed (o.stores (deed.id, deed.handle)).isSome, o.put (deed.id, deed.handle) o.disk none)
  | .working work =>
    match o.stores (deed.id, deed.handle) with
    | none => (.absent, o)
    | some opened =>
      let effect := work.perform o.disk opened
      (effect.outcome, o.put (deed.id, deed.handle) effect.disk effect.left)

/-- Deeds one after the other, each with what it comes to, and what there is in the end. -/
def run (dir : Path) : List (Deed ι) → OpenStores (Nat × ι) →
    List (Deed ι × Outcome) × OpenStores (Nat × ι)
  | [], o => ([], o)
  | deed :: rest, o =>
    let (outcome, next) := deed.perform dir o
    let (outcomes, last) := run dir rest next
    ((deed, outcome) :: outcomes, last)

/-- The disk, while no store is open. -/
def closed (disk : Disk) : OpenStores (Nat × ι) := ⟨disk, fun _ => none⟩

variable {dir : Path} {a : Nat} {start made : Disk} {o o' : OpenStores (Nat × ι)}

theorem put_self {i : Nat × ι} {opened : Option OpenStore} (h : o.stores i = opened) :
    o.put i o.disk opened = o := by
  subst h
  unfold OpenStores.put
  rw [Function.update_eq_self]

/-- The stores that are open are stores on the files of their numbers. -/
def Sound (dir : Path) (o : OpenStores (Nat × ι)) : Prop :=
  ∀ id i opened, o.stores (id, i) = some opened → opened.OnFiles ⟨dir, id⟩

omit [DecidableEq ι] in
theorem sound_closed (dir : Path) (disk : Disk) : Sound dir (closed disk : OpenStores (Nat × ι)) :=
  nofun

theorem Sound.put (h : Sound dir o) {id : Nat} {i : ι} {disk : Disk} {left : Option OpenStore}
    (hleft : ∀ opened, left = some opened → opened.OnFiles ⟨dir, id⟩) :
    Sound dir (o.put (id, i) disk left) := by
  intro id' i' opened hopened
  by_cases heq : (id', i') = (id, i)
  · cases heq
    rw [OpenStores.put_stores_self] at hopened
    exact hleft opened hopened
  · rw [OpenStores.put_stores_of_ne heq] at hopened
    exact h id' i' opened hopened

/-! ### Work -/

section Work

variable {files : FileSet} {region : Place → Prop} {disk disk' : Disk} {opened : OpenStore}

theorem OpenStore.OnFiles.withDefaults {entries : List (String × Value)} {store : Store Mounted}
    (h : opened.OnFiles files) (hstore : opened.store.withDefaults entries = .ok store) :
    OpenStore.OnFiles files { opened with store := store } := by
  obtain ⟨hmedium, hsnapshots, -⟩ := withDefaults_eq hstore
  exact ⟨hmedium.trans h.medium_eq, hsnapshots.trans h.snapshots_eq, h.files_eq⟩

theorem Work.defaulting_left (h : opened.OnFiles files) (entries : List (String × Value))
    (disk : Disk) : ((Work.defaulting entries).perform disk opened).disk = disk ∧
      ∀ left, ((Work.defaulting entries).perform disk opened).left = some left →
        left.OnFiles files := by
  unfold Work.perform
  dsimp only
  split
  · next store hstore =>
    refine ⟨rfl, ?_⟩
    rintro left heq
    cases heq
    exact h.withDefaults hstore
  · refine ⟨rfl, ?_⟩
    rintro left heq
    cases heq

/-- On disks that agree in the territory of a store, work with it comes to the same, and the disks
    agree there afterwards. -/
theorem Work.uniform (work : Work) (h : opened.OnFiles files) (hfiles : files.Inside region)
    (hdisk : Archive.Standing region files.dir disk disk') :
    (work.perform disk opened).outcome.FailsBy FileSet.IsDiskFault ∨
      ((work.perform disk opened).outcome = (work.perform disk' opened).outcome ∧
        (work.perform disk opened).left = (work.perform disk' opened).left ∧
        Archive.Standing region files.dir (work.perform disk opened).disk
          (work.perform disk' opened).disk ∧
        ∀ left, (work.perform disk opened).left = some left → left.OnFiles files) := by
  have hmatch : Archive.Matches files region ⟨disk, opened.archive⟩ ⟨disk', opened.archive⟩ :=
    ⟨rfl, h.files_eq, hdisk.1⟩
  have huniform := uniform_of_onFiles h hfiles
  cases work with
  | defaulting entries =>
    obtain ⟨hsame, hleft⟩ := Work.defaulting_left h entries disk
    obtain ⟨hsame', -⟩ := Work.defaulting_left h entries disk'
    right
    rw [hsame, hsame']
    refine ⟨?_, ?_, hdisk, hleft⟩
    · unfold Work.perform
      dsimp only
      split <;> rfl
    · unfold Work.perform
      dsimp only
      split <;> rfl
  | asking task =>
    refine (task.uniform huniform (s := ⟨⟨⟨disk, opened.archive⟩, opened.locks⟩, []⟩)
      (t := ⟨⟨⟨disk', opened.archive⟩, opened.locks⟩, []⟩) ⟨⟨hmatch, hdisk.2⟩, rfl⟩).imp id ?_
    rintro ⟨hsame, ⟨⟨harchive, hfiles', hagree⟩, hdir⟩, hlocks⟩
    refine ⟨congrArg Outcome.replied hsame, ?_, ⟨hagree, hdir⟩, ?_⟩
    · simp only [Work.perform, harchive, hlocks]
    · rintro left heq
      cases heq
      exact ⟨h.medium_eq, h.snapshots_eq, hfiles'⟩
  | querying query =>
    refine .inr ⟨congrArg Outcome.replied (query.uniform huniform ⟨hmatch, hdisk.2⟩), rfl, hdisk, ?_⟩
    rintro left heq
    cases heq
    exact h

/-- Work with a store leaves the other stores in the directory alone. -/
theorem Work.apart (work : Work) (other : FileSet) (h : opened.OnFiles files)
    (hdir : other.dir = files.dir) (hid : other.id ≠ files.id)
    (hdisk : disk.isDirectory files.dir) :
    (work.perform disk opened).outcome.FailsBy FileSet.IsDiskFault ∨
      (Disk.AgreeOn other.territory disk (work.perform disk opened).disk ∧
        (work.perform disk opened).disk.isDirectory files.dir ∧
        ∀ left, (work.perform disk opened).left = some left → left.OnFiles files) := by
  cases work with
  | defaulting entries =>
    obtain ⟨hsame, hleft⟩ := Work.defaulting_left h entries disk
    rw [hsame]
    exact .inr ⟨.refl _ _, hdisk, hleft⟩
  | asking task =>
    have hstart : Archive.Apart files other disk ⟨disk, opened.archive⟩ :=
      ⟨h.files_eq, hdisk, .refl _ _⟩
    refine (task.apart h hdir hid (s := ⟨⟨⟨disk, opened.archive⟩, opened.locks⟩, []⟩) hstart).imp id
      fun hafter => ⟨hafter.agree, hafter.isDirectory, ?_⟩
    rintro left heq
    cases heq
    exact ⟨h.medium_eq, h.snapshots_eq, hafter.files_eq⟩
  | querying query =>
    refine .inr ⟨.refl _ _, hdisk, ?_⟩
    rintro left heq
    cases heq
    exact h

end Work

/-! ### Openings -/

section Opening

variable {settings : Settings} {id : Nat} {i : ι} {store : Store Mounted} {archive : Archive}
  {fault : OpenFault}

theorem Deed.perform_opened
    (h : (openWith dir { settings with instanceId := id }).outcome ⟨o.disk, []⟩ =
      .ok (store, archive)) :
    (⟨id, i, .opening settings⟩ : Deed ι).perform dir o = (.opened (.ok ()), o.put (id, i)
      ((openWith dir { settings with instanceId := id }).after ⟨o.disk, []⟩).state
        (some ⟨store, archive, .empty⟩)) := by
  simp only [Deed.perform, h]

theorem Deed.perform_refused
    (h : (openWith dir { settings with instanceId := id }).outcome ⟨o.disk, []⟩ = .error fault) :
    (⟨id, i, .opening settings⟩ : Deed ι).perform dir o = (.opened (.error fault),
      ⟨((openWith dir { settings with instanceId := id }).after ⟨o.disk, []⟩).state, o.stores⟩) := by
  simp only [Deed.perform, h]

theorem sound_of_opening (ho : Sound dir o)
    (h : (openWith dir { settings with instanceId := id }).outcome ⟨o.disk, []⟩ =
      .ok (store, archive)) (disk : Disk) :
    Sound dir (o.put (id, i) disk (some ⟨store, archive, .empty⟩)) := by
  apply ho.put
  rintro opened heq
  cases heq
  exact (onFiles_of_openWith (Op.eq_ok_of_outcome h)).1

end Opening

/-! ### The first deeds -/

/-- A deed is the opening of a store, or else it does nothing while no store is open under its handle,
    and what it comes to then depends on the deed only. -/
theorem Deed.opening_or_idle (dir : Path) (deed : Deed ι) :
    (∃ settings, deed.act = .opening settings) ∨
      ∃ outcome, ∀ o : OpenStores (Nat × ι), o.stores (deed.id, deed.handle) = none →
        deed.perform dir o = (outcome, o) := by
  obtain ⟨id, i, act⟩ := deed
  cases act with
  | opening settings => exact .inl ⟨settings, rfl⟩
  | closing =>
    refine .inr ⟨.closed false, fun o ho => ?_⟩
    simp only [Deed.perform, ho, put_self ho, Option.isSome_none]
  | working work =>
    refine .inr ⟨.absent, fun o ho => ?_⟩
    simp only [Deed.perform, ho]

/-- What there is after a store of this number has been the first to be opened: the directory as it
    was, or made, and no stores of other numbers. -/
structure Begun (dir : Path) (start : Disk) (id : Nat) (o : OpenStores (Nat × ι)) : Prop where
  founded : Archive.Founded dir start o.disk
  isDirectory : o.disk.isDirectory dir
  stores : ∀ other, other ≠ id → ∀ i, o.stores (other, i) = none
  sound : Sound dir o

theorem Deed.perform_first (dir : Path) (deed : Deed ι) (start : Disk) :
    (deed.perform dir (closed start)).1.FailsBy FileSet.IsDiskFault ∨
      (deed.perform dir (closed start)).2 = closed start ∨
        Begun dir start deed.id (deed.perform dir (closed start)).2 := by
  rcases deed.opening_or_idle dir with ⟨settings, hact⟩ | ⟨outcome, hidle⟩
  · obtain ⟨id, i, act⟩ := deed
    obtain rfl : act = .opening settings := hact
    rcases openWith_founded dir { settings with instanceId := id } start with
      ⟨fault, hopen, hfault⟩ | hfounded
    · rw [Deed.perform_refused (o := closed start) hopen]
      exact .inl hfault
    right
    cases hopen : (openWith dir { settings with instanceId := id }).outcome ⟨start, []⟩ with
    | ok result =>
      rw [Deed.perform_opened (o := closed start) hopen]
      refine .inr ⟨hfounded, (onFiles_of_openWith (Op.eq_ok_of_outcome hopen)).2, ?_,
        sound_of_opening (sound_closed dir start) hopen _⟩
      intro other hother j
      exact OpenStores.put_stores_of_ne (fun heq => hother (Prod.mk.inj heq).1) _ _ _
    | error fault =>
      rw [Deed.perform_refused (o := closed start) hopen]
      rcases hfounded with hstart | hmade
      · exact .inl (congrArg closed hstart)
      · exact .inr ⟨.inr hmade, hmade.2, fun _ _ _ => rfl, sound_closed dir _⟩
  · rw [hidle (closed start) rfl]
    exact .inr (.inl rfl)

/-! ### Deeds of other numbers -/

/-- What a deed of another number leaves: the territory of this one, the directory, and its stores. -/
structure LeavesAlone (dir : Path) (a : Nat) (o next : OpenStores (Nat × ι)) : Prop where
  agree : Disk.AgreeOn (FileSet.territory ⟨dir, a⟩) o.disk next.disk
  isDirectory : next.disk.isDirectory dir
  stores : ∀ i, next.stores (a, i) = o.stores (a, i)
  sound : Sound dir next

/-- A deed of another number leaves this one alone, where the directory is there. -/
theorem Deed.perform_other (deed : Deed ι) (hid : deed.id ≠ a) (ho : Sound dir o)
    (hdir : o.disk.isDirectory dir) :
    (deed.perform dir o).1.FailsBy FileSet.IsDiskFault ∨
      LeavesAlone dir a o (deed.perform dir o).2 := by
  obtain ⟨id, i, act⟩ := deed
  have hother : ∀ j, (a, j) ≠ (id, i) := by
    rintro j heq
    cases heq
    exact hid rfl
  cases act with
  | opening settings =>
    right
    have hsame := openWith_settled dir { settings with instanceId := id } ⟨o.disk, []⟩ hdir
    cases hopen : (openWith dir { settings with instanceId := id }).outcome ⟨o.disk, []⟩ with
    | ok result =>
      rw [Deed.perform_opened hopen, hsame]
      exact ⟨.refl _ _, hdir, fun j => OpenStores.put_stores_of_ne (hother j) _ _ _,
        sound_of_opening ho hopen _⟩
    | error fault =>
      rw [Deed.perform_refused hopen, hsame]
      exact ⟨.refl _ _, hdir, fun _ => rfl, ho⟩
  | closing =>
    refine .inr ⟨.refl _ _, hdir, fun j => OpenStores.put_stores_of_ne (hother j) _ _ _, ?_⟩
    exact ho.put nofun
  | working work =>
    unfold Deed.perform
    dsimp only
    split
    · exact .inr ⟨.refl _ _, hdir, fun _ => rfl, ho⟩
    · next opened hopened =>
      refine (work.apart ⟨dir, a⟩ (ho id i opened hopened) rfl (Ne.symm hid) hdir).imp_right ?_
      rintro ⟨hagree, hexists, hleft⟩
      exact ⟨hagree, hexists, fun j => OpenStores.put_stores_of_ne (hother j) _ _ _, ho.put hleft⟩

end TypedStore.Store
