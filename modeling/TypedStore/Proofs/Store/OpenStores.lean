/-
  TypedStore/Proofs/Store/OpenStores.lean
  =======================================
  **What stores have written, whatever settings they have been opened with.**

  Stores are opened on the files of one instance, each time with settings of their own, asked to do
  things, and closed. Whatever comes of the openings and of what they are asked, every key in the data
  files and in the archives that are open consists of characters of keys, and the files stay within
  reach (`OpenStores.Reach.written`). How long keys may be is another matter: that depends on who has
  written them.
-/
import Mathlib.Logic.Relation
import TypedStore.Proofs.Archive.Contained
import TypedStore.Proofs.Store.Tasks
import TypedStore.Store.Opening

namespace TypedStore

/-! ### Entries under keys -/

/-- The names consist of characters of keys. -/
def Keyed (entries : Json.RawObject) : Prop := ∀ name, entries.contains name → IsKeyText name

/-- The entries that the bytes stand for, if any, are under such names. -/
def KeyedBytes (bytes : Bytes) : Prop := ∀ entries, FileSet.parse bytes = .ok entries → Keyed entries

theorem keyed_empty : Keyed .empty := by
  intro name h
  cases h

theorem Keyed.insert {entries : Json.RawObject} (h : Keyed entries) {name : String}
    (hname : IsKeyText name) (raw : Json.RawText) : Keyed (entries.insert name raw) := by
  intro other hother
  rw [SortedMap.contains, SortedMap.get?_insert] at hother
  split at hother
  · next heq =>
    rw [heq]
    exact hname
  · exact h other hother

theorem Keyed.erase {entries : Json.RawObject} (h : Keyed entries) (name : String) :
    Keyed (entries.erase name) := by
  intro other hother
  rw [SortedMap.contains, SortedMap.get?_erase] at hother
  split at hother
  · cases hother
  · exact h other hother

theorem Keyed.toBytes {entries : Json.RawObject} (h : Keyed entries) : KeyedBytes entries.toBytes := by
  intro other hother
  rw [FileSet.parse_toBytes] at hother
  cases hother
  exact h

namespace Archive

/-- What is loaded from data files with such names has such names. -/
theorem keyed_of_load {files : FileSet} {options : ArchiveOptions} {d opened : Journaled Disk}
    {archive : Archive} (h : load files options d = .ok archive opened)
    (hdisk : files.HoldsOnly KeyedBytes opened.state) : Keyed archive.entries := by
  obtain ⟨disk, committed, entries, -, -, hread, hloads, rfl, rfl⟩ := load_eq_ok_iff.1 h
  have hverified : ∀ bytes, committed = some bytes →
      FileSet.parseVerified bytes (files.data 0) (files.checksum 0) disk = .ok entries →
        Keyed entries := by
    rintro bytes rfl hverified
    exact hdisk.of_read (FileSet.readIfPresent_eq_some_iff.1 hread) entries
      (FileSet.parseVerified_eq_ok_iff.1 hverified).2
  unfold FileSet.Loads at hloads
  split at hloads
  · rw [hloads]
    exact keyed_empty
  · rw [hloads]
    exact keyed_empty
  · cases hloads
  · next bytes _ => exact hverified bytes rfl hloads

/-- The files of an archive, and its entries, are under names that consist of characters of keys. -/
structure Written (files : FileSet) (s : Mounted) : Prop where
  disk : files.HoldsOnly KeyedBytes s.disk
  archive : s.archive.Admits files KeyedBytes
  entries : Keyed s.archive.entries

/-- What has been written under keys stays so, the directories stay, and as many generations are kept
    as before. -/
def Upholds (files : FileSet) (s t : Mounted) : Prop :=
  Written files s →
    Written files t ∧ s.disk.HasDirectories t.disk ∧ t.archive.keep = s.archive.keep

theorem Upholds.refl (files : FileSet) (s : Mounted) : Upholds files s s :=
  fun h => ⟨h, .refl _, rfl⟩

theorem Upholds.trans {files : FileSet} {s t u : Mounted} (hst : Upholds files s t)
    (htu : Upholds files t u) : Upholds files s u := by
  intro h
  obtain ⟨ht, hdirs, hkeep⟩ := hst h
  obtain ⟨hu, hdirs', hkeep'⟩ := htu ht
  exact ⟨hu, hdirs.trans hdirs', hkeep'.trans hkeep⟩

variable {files : FileSet} {s : Journaled Mounted}

/-- A call that does not give a value to another name. -/
def Call.Names : Call → Prop
  | .persist key _ => ∀ name, Utf8.decode key = .ok name → IsKeyText name
  | .remove _ | .clear | .restore _ => True

theorem Call.Makes.keyed {c : Call} {s : Mounted} {entries : Json.RawObject} (hc : c.Names)
    (h : Written files s) (hmakes : c.Makes s entries) : Keyed entries := by
  cases c with
  | persist key value =>
    obtain ⟨name, _, raw, hname, -, -, rfl⟩ := hmakes
    exact h.entries.insert (hc name hname) raw
  | remove key =>
    obtain ⟨name, -, -, rfl⟩ := hmakes
    exact h.entries.erase name
  | clear =>
    obtain ⟨-, rfl⟩ := hmakes
    exact keyed_empty
  | restore generation =>
    obtain ⟨bytes, hread, hparse⟩ := hmakes
    rw [h.archive.files_eq] at hread
    exact h.disk.of_read hread entries (FileSet.parseVerified_eq_ok_iff.1 hparse).2

theorem Call.perform_upholds {c : Call} (hc : c.Names) : c.perform.Leaves (Upholds files) := by
  intro s h
  have hkeyed : ∀ entries, c.Makes s.state entries → Keyed entries :=
    fun entries => Call.Makes.keyed hc h
  obtain ⟨hdisk, hdirs, harchive⟩ :=
    Call.perform_contained h.disk h.archive fun entries hmakes => (hkeyed entries hmakes).toBytes
  rcases c.after_cases s with hsame | ⟨entries, hmakes, -, heq | heq⟩
  · rw [hsame]
    exact Upholds.refl files s.state h
  · refine ⟨⟨hdisk, harchive, ?_⟩, hdirs, ?_⟩
    · rw [heq]
      exact h.entries
    · rw [heq]
  · refine ⟨⟨hdisk, harchive, ?_⟩, hdirs, ?_⟩
    · rw [heq]
      exact hkeyed entries hmakes
    · rw [heq]

/-- The state after an operation does not depend on whether its result is wanted. -/
theorem after_discarded {α : Type} (op : Op StorageFault Mounted α) (s : Journaled Mounted) :
    (do let _ ← op : Op StorageFault Mounted Unit).after s = op.after s := by
  cases hop : op s with
  | ok a t =>
    rw [Op.after_of_ok hop]
    exact Op.after_of_ok (Op.bind_of_ok hop)
  | error e t =>
    rw [Op.after_of_error hop]
    exact Op.after_of_error (Op.bind_of_error hop)

theorem keyText_leaves {r : Mounted → Mounted → Prop} (hrefl : ∀ x, r x x) (key : Bytes) :
    (keyText key).Leaves r := by
  unfold keyText
  exact Op.leaves_look hrefl _

theorem current_leaves {r : Mounted → Mounted → Prop} (hrefl : ∀ x, r x x) :
    current.Leaves r := fun s => hrefl s.state

theorem respects {store : Store Mounted} (hmedium : store.medium = medium)
    (hsnapshots : store.snapshots = some snapshots) (files : FileSet) :
    store.Respects (Upholds files) := by
  have hrefl := Upholds.refl files
  have htext : ∀ {α : Type} (key : Bytes) (f : Json.RawObject → String → α),
      (keyText key >>= fun name => current >>= fun entries => pure (f entries name) :
        Op StorageFault Mounted α).Leaves (Upholds files) := by
    intro α key f
    apply (keyText_leaves hrefl key).bind Upholds.trans
    intro name
    apply (current_leaves hrefl).bind Upholds.trans
    intro entries
    exact Op.leaves_pure hrefl _
  refine ⟨hrefl, Upholds.trans, ?_, ?_, ?_, ?_, ?_, ?_, ?_⟩
  · intro name value hname
    rw [hmedium]
    apply Call.perform_upholds (c := .persist (Utf8.encode name) value)
    intro other hother
    rw [Utf8.decode_encode] at hother
    cases hother
    exact hname
  · intro key
    rw [hmedium]
    exact htext key _
  · intro key s
    rw [hmedium, ← after_discarded]
    exact Call.perform_upholds (c := .remove key) trivial s
  · rw [hmedium]
    apply (current_leaves hrefl).bind Upholds.trans
    intro entries
    exact Op.leaves_pure hrefl _
  · intro key
    rw [hmedium]
    exact htext key _
  · intro s
    rw [hmedium, ← after_discarded]
    exact Call.perform_upholds (c := .clear) trivial s
  · intro snapshots' heq id
    rw [hsnapshots] at heq
    cases heq
    exact Call.perform_upholds (c := .restore id) trivial

end Archive

namespace Store

/-! ### Opening -/

/-- Defaults are all that adding defaults changes. -/
theorem withDefaults_eq {store next : Store σ} {entries : List (String × Value)}
    (h : store.withDefaults entries = .ok next) :
    next.medium = store.medium ∧ next.snapshots = store.snapshots ∧ next.limits = store.limits := by
  unfold withDefaults at h
  induction entries generalizing store with
  | nil =>
    cases h
    exact ⟨rfl, rfl, rfl⟩
  | cons entry rest ih =>
    obtain ⟨between, hbetween, hrest⟩ := Except.bind_eq_ok_iff.1 h
    obtain ⟨hmedium, hsnapshots, hlimits⟩ := ih hrest
    unfold withDefault at hbetween
    split at hbetween
    · cases hbetween
      exact ⟨hmedium, hsnapshots, hlimits⟩
    · cases hbetween

theorem build_eq_ok {σ τ : Type} {medium : Medium σ} {snapshots : Option (Snapshots σ)}
    {settings : Settings} {s t : Journaled τ} {store : Store σ}
    (h : build medium snapshots settings s = .ok store t) :
    store.medium = medium ∧ store.snapshots = snapshots ∧ store.limits = settings.limits ∧
      t.state = s.state := by
  unfold build at h
  obtain ⟨policy, r, hpolicy, h⟩ := Op.bind_eq_ok_iff.1 h
  obtain ⟨_, r', hreport, h⟩ := Op.bind_eq_ok_iff.1 h
  have hr : r = s := (Op.look_eq_ok_iff.1 hpolicy).2
  have hr' : r'.state = r.state := by
    cases hreport
    rfl
  rw [Op.pure_apply] at h
  cases h
  exact ⟨rfl, rfl, rfl, hr'.trans (congrArg Journaled.state hr)⟩

/-- What a store that has been opened consists of. -/
theorem openWith_eq_ok {dir : Path} {settings : Settings} {s t : Journaled Disk}
    {store : Store Mounted} {archive : Archive}
    (h : openWith dir settings s = .ok (store, archive) t) :
    store.medium = Archive.medium ∧ store.snapshots = some Archive.snapshots ∧
      store.limits = settings.limits ∧ ∃ options before opened,
        Archive.load ⟨dir, settings.instanceId⟩ options before = .ok archive opened ∧
          t.state = opened.state := by
  unfold openWith at h
  obtain ⟨_, _, -, h⟩ := Op.bind_eq_ok_iff.1 h
  obtain ⟨_, _, -, h⟩ := Op.bind_eq_ok_iff.1 h
  obtain ⟨defaults, _, -, h⟩ := Op.bind_eq_ok_iff.1 h
  obtain ⟨mode, before, -, h⟩ := Op.bind_eq_ok_iff.1 h
  obtain ⟨loaded, opened, hload, h⟩ := Op.bind_eq_ok_iff.1 h
  obtain ⟨built, r, hbuild, h⟩ := Op.bind_eq_ok_iff.1 h
  obtain ⟨next, r', hdefaults, h⟩ := Op.bind_eq_ok_iff.1 h
  obtain ⟨hnext, hr'⟩ := Op.look_eq_ok_iff.1 hdefaults
  obtain ⟨hmedium, hsnapshots, hlimits, hstate⟩ := build_eq_ok hbuild
  obtain ⟨hmedium', hsnapshots', hlimits'⟩ := withDefaults_eq hnext
  rw [Op.pure_apply] at h
  cases h
  exact ⟨hmedium'.trans hmedium, hsnapshots'.trans hsnapshots, hlimits'.trans hlimits, _, before,
    opened, Op.mapError_eq_ok_iff.1 hload, (congrArg Journaled.state hr').trans hstate⟩

theorem build_leaves {σ τ : Type} {r : τ → τ → Prop} (hrefl : ∀ x, r x x)
    (htrans : ∀ {a b c}, r a b → r b c → r a c) (medium : Medium σ)
    (snapshots : Option (Snapshots σ)) (settings : Settings) :
    (build medium snapshots settings : Op OpenFault τ (Store σ)).Leaves r := by
  apply (Op.leaves_look hrefl _).bind htrans
  intro policy
  apply (Op.leaves_report hrefl _).bind htrans
  intro _
  exact Op.leaves_pure hrefl _

section Leaves

variable {r : Disk → Disk → Prop} (hrefl : ∀ disk, r disk disk)
  (htrans : ∀ {a b c}, r a b → r b c → r a c)
include hrefl htrans

theorem readDefaultsFile_leaves (files : FileSet) : files.readDefaults.Leaves r := by
  have hstate : (Op.state : Op StorageFault Disk Disk).Leaves r := fun s => hrefl s.state
  apply (Op.leaves_look hrefl _).bind htrans
  rintro (_ | bytes)
  · exact Op.leaves_pure hrefl none
  · have hparsed := (Op.leaves_look hrefl fun _ : Disk => FileSet.parse bytes).bind htrans
      fun entries => (Op.leaves_report hrefl (.readDefaults files.defaults entries.size)).bind htrans
        fun _ => Op.leaves_pure hrefl (some entries)
    apply hstate.bind htrans
    intro disk
    dsimp only
    split
    · exact (Op.leaves_look hrefl _).bind htrans fun _ => hparsed
    · exact hparsed

theorem readDefaults_leaves (files : FileSet) (mode : LoadMode) :
    (readDefaults files mode).Leaves r := by
  unfold readDefaults
  split
  · exact Op.leaves_pure hrefl []
  · apply (readDefaultsFile_leaves hrefl htrans files).mapError.bind htrans
    rintro (_ | entries)
    · dsimp only
      split
      · exact Op.leaves_throw hrefl _
      · exact Op.leaves_pure hrefl []
    · exact Op.leaves_look hrefl _

/-- But for the making of the directory opening a store only looks at files. -/
theorem openWith_leaves {dir : Path}
    (hmake : ∀ disk : Disk, r disk (disk.makeDirectories dir).2) (settings : Settings) :
    (openWith dir settings).Leaves r := by
  apply (Op.leaves_look hrefl _).bind htrans
  intro _
  apply (Op.leaves_look hrefl _).bind htrans
  intro defaultsMode
  apply (readDefaults_leaves hrefl htrans _ defaultsMode).bind htrans
  intro defaults
  apply (Op.leaves_look hrefl _).bind htrans
  intro loadMode
  apply (Archive.load_leaves hrefl htrans hmake _).mapError.bind htrans
  intro archive
  apply (build_leaves hrefl htrans _ _ _).bind htrans
  intro store
  apply (Op.leaves_look hrefl _).bind htrans
  intro next
  exact Op.leaves_pure hrefl _

end Leaves

/-- Where the directory is there, opening a store changes nothing. -/
theorem openWith_settled (dir : Path) (settings : Settings) :
    (openWith dir settings).Leaves (Archive.Settled dir) :=
  openWith_leaves (Archive.Settled.refl dir) Archive.Settled.trans
    (Archive.makeDirectories_settled dir) settings

/-! ### Stores that are open -/

/-- A store on files: its archive, and its locks. -/
structure OpenStore where
  store : Store Mounted
  archive : Archive
  locks : KeyLocks

/-- The disk, and the stores that are open on it, each under a handle. -/
structure OpenStores (ι : Type) where
  disk : Disk
  stores : ι → Option OpenStore

/-- The store is one on these files, in which everything is under names of characters of keys. -/
structure OpenStore.Written (files : FileSet) (opened : OpenStore) : Prop where
  medium_eq : opened.store.medium = Archive.medium
  snapshots_eq : opened.store.snapshots = some Archive.snapshots
  keep_ne : opened.archive.keep ≠ 0
  archive : opened.archive.Admits files KeyedBytes
  entries : Keyed opened.archive.entries

namespace OpenStores

variable {ι : Type}

/-- The files, and the stores that are open on them, have only names of characters of keys. -/
structure Written (files : FileSet) (o : OpenStores ι) : Prop where
  isDirectory : o.disk.isDirectory files.dir
  disk : files.HoldsOnly KeyedBytes o.disk
  stores : ∀ i opened, o.stores i = some opened → opened.Written files

theorem Written.mounted {files : FileSet} {o : OpenStores ι} (h : Written files o) {i : ι}
    {opened : OpenStore} (hopen : o.stores i = some opened) :
    Archive.Written files ⟨o.disk, opened.archive⟩ :=
  ⟨h.disk, (h.stores i opened hopen).archive, (h.stores i opened hopen).entries⟩

variable [DecidableEq ι]

/-- A store, or none, under a handle, with the disk that it has been working on. -/
def put (o : OpenStores ι) (i : ι) (disk : Disk) (opened : Option OpenStore) : OpenStores ι :=
  ⟨disk, Function.update o.stores i opened⟩

/-- The session of a store that is open. -/
def session (o : OpenStores ι) (opened : OpenStore) : Session Mounted :=
  ⟨⟨o.disk, opened.archive⟩, opened.locks⟩

/-- What may happen to the stores on the files of one instance: one is opened, with whatever settings,
    or its opening is refused; one is closed, is given defaults, or is asked to do something. -/
inductive Step (files : FileSet) (o : OpenStores ι) : OpenStores ι → Prop where
  | opened {i : ι} {settings : Settings} {events : List Event} {store : Store Mounted}
      {archive : Archive} {t : Journaled Disk} :
    settings.instanceId = files.id →
      openWith files.dir settings ⟨o.disk, events⟩ = .ok (store, archive) t →
        Step files o (o.put i t.state (some ⟨store, archive, .empty⟩))
  | refused {settings : Settings} {events : List Event} {fault : OpenFault} {t : Journaled Disk} :
    openWith files.dir settings ⟨o.disk, events⟩ = .error fault t →
      Step files o ⟨t.state, o.stores⟩
  | closed {i : ι} : Step files o (o.put i o.disk none)
  | defaulted {i : ι} {opened : OpenStore} {defaults : List (String × Value)}
      {store : Store Mounted} :
    o.stores i = some opened → opened.store.withDefaults defaults = .ok store →
      Step files o (o.put i o.disk (some { opened with store := store }))
  | asked {i : ι} {opened : OpenStore} {task : Task} {events : List Event}
      {t : Journaled (Session Mounted)} :
    o.stores i = some opened → task.after opened.store ⟨o.session opened, events⟩ = t →
      Step files o (o.put i t.state.medium.disk
        (some ⟨opened.store, t.state.medium.archive, t.state.locks⟩))

/-- What may have happened after some steps. -/
abbrev Reach (files : FileSet) : OpenStores ι → OpenStores ι → Prop :=
  Relation.ReflTransGen (Step files)

variable {files : FileSet} {start o next : OpenStores ι}

theorem put_stores_self (o : OpenStores ι) (i : ι) (disk : Disk) (opened : Option OpenStore) :
    (o.put i disk opened).stores i = opened := Function.update_self _ _ _

theorem put_stores_of_ne {i j : ι} (h : j ≠ i) (o : OpenStores ι) (disk : Disk)
    (opened : Option OpenStore) : (o.put i disk opened).stores j = o.stores j :=
  Function.update_of_ne h _ _

theorem put_put (o : OpenStores ι) (i : ι) (disk disk' : Disk) (opened opened' : Option OpenStore) :
    (o.put i disk opened).put i disk' opened' = o.put i disk' opened' := by
  unfold put
  rw [Function.update_idem]

theorem Written.put {i : ι} {disk : Disk} {opened : Option OpenStore} (h : Written files o)
    (hdisk : files.HoldsOnly KeyedBytes disk) (hdirs : o.disk.HasDirectories disk)
    (hopened : ∀ store, opened = some store → store.Written files) :
    Written files (o.put i disk opened) := by
  refine ⟨Disk.isDirectory_mono hdirs h.isDirectory, hdisk, ?_⟩
  intro j store hj
  by_cases heq : j = i
  · subst heq
    rw [put_stores_self] at hj
    exact hopened store hj
  · rw [put_stores_of_ne heq] at hj
    exact h.stores j store hj

theorem Step.written (h : o.Step files next) (ho : Written files o) : Written files next := by
  cases h with
  | @opened i settings events store archive t hid hopen =>
    have hsame := openWith_settled files.dir settings ⟨o.disk, events⟩ ho.isDirectory
    rw [Op.after_of_ok hopen] at hsame
    change t.state = o.disk at hsame
    obtain ⟨hmedium, hsnapshots, -, options, before, loaded, hload, hstate⟩ := openWith_eq_ok hopen
    rw [hid] at hload
    have hdisk : files.HoldsOnly KeyedBytes loaded.state := by
      rw [← hstate, hsame]
      exact ho.disk
    obtain ⟨_, _, _, hkeep, -, -, -, harchive, -⟩ := Archive.load_eq_ok_iff.1 hload
    have hnew : OpenStore.Written files ⟨store, archive, .empty⟩ := by
      refine ⟨hmedium, hsnapshots, ?_, Archive.admits_of_load hload hdisk,
        Archive.keyed_of_load hload hdisk⟩
      rw [harchive]
      exact hkeep
    rw [hsame]
    apply ho.put ho.disk (.refl _)
    rintro _ heq
    cases heq
    exact hnew
  | @refused settings events fault t hopen =>
    have hsame := openWith_settled files.dir settings ⟨o.disk, events⟩ ho.isDirectory
    rw [Op.after_of_error hopen] at hsame
    change t.state = o.disk at hsame
    rw [hsame]
    exact ho
  | closed =>
    apply ho.put ho.disk (.refl _)
    intro store hstore
    cases hstore
  | @defaulted i opened defaults store hopen hstore =>
    obtain ⟨hmedium, hsnapshots, hkeep, harchive, hentries⟩ := ho.stores i opened hopen
    obtain ⟨hmedium', hsnapshots', -⟩ := withDefaults_eq hstore
    apply ho.put ho.disk (.refl _)
    rintro _ heq
    cases heq
    exact ⟨hmedium'.trans hmedium, hsnapshots'.trans hsnapshots, hkeep, harchive, hentries⟩
  | @asked i opened task events t hopen htask =>
    obtain ⟨hmedium, hsnapshots, hkeep, -, -⟩ := ho.stores i opened hopen
    have hrespects := Archive.respects hmedium hsnapshots files
    have hupholds := Task.leaves hrespects task ⟨o.session opened, events⟩
    rw [htask] at hupholds
    obtain ⟨⟨hdisk, harchive, hentries⟩, hdirs, hkeep'⟩ := hupholds (ho.mounted hopen)
    apply ho.put hdisk hdirs
    rintro _ heq
    cases heq
    exact ⟨hmedium, hsnapshots, fun hzero => hkeep (hkeep'.symm.trans hzero), harchive, hentries⟩

/-- Whatever has happened, everything is under names of characters of keys. -/
theorem Reach.written (h : Reach files start o) (hstart : Written files start) : Written files o := by
  induction h with
  | refl => exact hstart
  | tail _ hstep ih => exact hstep.written ih

/-! ### Runs of one store -/

section Runs

variable {i : ι} {store : Store Mounted}

/-- Where the directory is there, opening a store leaves the disk as it is. -/
theorem Reach.opened {disk : Disk} {before : Option OpenStore} {settings : Settings}
    {archive : Archive} {t : Journaled Disk} (h : Reach files start (start.put i disk before))
    (hid : settings.instanceId = files.id) (hdir : disk.isDirectory files.dir)
    (hopen : openWith files.dir settings ⟨disk, []⟩ = .ok (store, archive) t) :
    Reach files start (start.put i disk (some ⟨store, archive, .empty⟩)) := by
  have hsame := openWith_settled files.dir settings ⟨disk, []⟩ hdir
  rw [Op.after_of_ok hopen] at hsame
  change t.state = disk at hsame
  have hstep : Step files (start.put i disk before) _ := .opened (i := i) hid hopen
  rw [hsame, put_put] at hstep
  exact h.tail hstep

theorem Reach.asked {s : Session Mounted} {t : Journaled (Session Mounted)}
    (h : Reach files start
      (start.put i s.medium.disk (some ⟨store, s.medium.archive, s.locks⟩)))
    (task : Task) (ht : task.after store ⟨s, []⟩ = t) :
    Reach files start (start.put i t.state.medium.disk
      (some ⟨store, t.state.medium.archive, t.state.locks⟩)) := by
  have hstep : Step files
      (start.put i s.medium.disk (some ⟨store, s.medium.archive, s.locks⟩)) _ :=
    .asked (put_stores_self _ _ _ _) ht
  rw [put_put] at hstep
  exact h.tail hstep

end Runs

end OpenStores

end Store

end TypedStore
