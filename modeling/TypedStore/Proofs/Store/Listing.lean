/-
  TypedStore/Proofs/Store/Listing.lean
  ====================================
  **What is listed, what is there, and what can be fetched and removed.**

  A store lists whatever its medium has, but asks the medium for a key only if the key is admissible
  under the limits of the store. Files outlive the settings with which they were written: a store may
  find keys there that are longer than its own limit. For all keys within the limit the operations
  agree; of longer ones a store denies the presence, though it lists them
  (`OpenStores.listing_agrees_within_limit`).
-/
import TypedStore.Proofs.Archive.Agreement
import TypedStore.Proofs.Archive.Generations
import TypedStore.Proofs.Store.Entries
import TypedStore.Proofs.Store.OpenStores

namespace TypedStore

/-! ### What an archive answers -/

namespace Archive

variable {s : Journaled Mounted} {name : String}

theorem contains_outcome (name : String) (s : Journaled Mounted) :
    (medium.contains (Utf8.encode name)).outcome s = .ok (s.state.archive.entries.contains name) := by
  have h : medium.contains (Utf8.encode name) s = .ok (s.state.archive.entries.contains name) s :=
    Op.bind_of_ok (keyText_of_ok (Utf8.decode_encode name))
  rw [Op.outcome, h]

theorem remove_outcome_of_absent (h : s.state.archive.entries.contains name = false) :
    (medium.remove (Utf8.encode name)).outcome s = .ok false := by
  rw [Op.outcome, remove_of_absent (Utf8.decode_encode name) h]

theorem remove_outcome_of_present (h : s.state.archive.entries.contains name) :
    (medium.remove (Utf8.encode name)).outcome s = .ok true ∨
      ∃ fault, (medium.remove (Utf8.encode name)).outcome s = .error fault ∧
        FileSet.IsDiskFault fault := by
  have hremove := remove_of_present (Utf8.decode_encode name) h
  cases hreplace : replace (s.state.archive.entries.erase name) s with
  | ok u t =>
    left
    rw [Op.outcome, hremove, Op.bind_of_ok hreplace]
    rfl
  | error fault t =>
    right
    refine ⟨fault, ?_, replace_failsOnly _ s fault t hreplace⟩
    rw [Op.outcome, hremove, Op.bind_of_error hreplace]

/-- Where there is room for the generations that are kept, removing succeeds. -/
theorem remove_outcome_of_roomy {files : FileSet} (hs : Written files s.state)
    (hkeep : s.state.archive.keep ≠ 0)
    (hroom : files.Roomy s.state.archive.keep s.state.disk)
    (h : s.state.archive.entries.contains name) :
    (medium.remove (Utf8.encode name)).outcome s = .ok true := by
  obtain ⟨t, hcommit⟩ := FileSet.commit_succeeds (s := ⟨s.state.disk, s.events⟩) hs.disk.holds hroom
    hkeep s.state.archive.committed
    (Json.RawObject.toBytes (s.state.archive.entries.erase name))
  rw [← hs.archive.files_eq] at hcommit
  rw [Op.outcome, remove_of_present (Utf8.decode_encode name) h,
    Op.bind_of_ok (replace_eq_ok_iff (u := ()).2 ⟨t, hcommit, rfl⟩)]
  rfl

end Archive

namespace Store

/-! ### What a store makes of it -/

section Outcomes

variable {σ α : Type} {store : Store σ} {key : String} {s : Journaled (Session σ)}

theorem onMedium_outcome (op : Op StorageFault σ α) (s : Journaled (Session σ)) :
    (onMedium op).outcome s = op.outcome ⟨s.state.medium, s.events⟩ := by
  unfold Op.outcome onMedium Op.within
  cases op ⟨s.state.medium, s.events⟩ <;> rfl

theorem lockedOnMedium_outcome (key : Bytes) (op : Op StorageFault σ α)
    (s : Journaled (Session σ)) :
    (lockedOnMedium key op).outcome s = op.outcome ⟨s.state.medium, s.events⟩ := by
  rw [lockedOnMedium, withLock_outcome, onMedium_outcome]

theorem contains_outcome (store : Store σ) (key : String) (s : Journaled (Session σ)) :
    (store.contains key).outcome s =
      if isAdmissible store.limits key then
        (store.medium.contains (Utf8.encode key)).outcome ⟨s.state.medium, s.events⟩
      else .ok false := by
  unfold contains
  split
  · exact onMedium_outcome _ s
  · rfl

theorem fetch_outcome (store : Store σ) (key : String) (s : Journaled (Session σ)) :
    (store.fetch key).outcome s =
      if isAdmissible store.limits key then
        (store.medium.retrieve (Utf8.encode key)).outcome ⟨s.state.medium, s.events⟩
      else .ok none := by
  unfold fetch
  split
  · exact lockedOnMedium_outcome _ _ s
  · rfl

/-- A key is not found just if nothing is fetched for it. -/
theorem get_notFound_iff :
    (store.get key).outcome s = .error (.notFound key) ↔ (store.fetch key).outcome s = .ok none := by
  unfold Op.outcome get
  cases hfetch : store.fetch key s with
  | error fault t =>
    rw [Op.bind_of_error (Op.mapError_of_error hfetch)]
    simp
  | ok found t =>
    rw [Op.bind_of_ok (Op.mapError_eq_ok_iff.2 hfetch)]
    cases found with
    | none => exact iff_of_true rfl rfl
    | some bytes =>
      dsimp only
      cases Value.decodeBytes bytes with
      | error fault => exact iff_of_false nofun nofun
      | ok value => exact iff_of_false nofun nofun

/-- Removing answers what the medium has answered, if it is asked at all. -/
theorem remove_outcome (store : Store σ) (key : String) (s : Journaled (Session σ)) :
    (store.remove key).outcome s =
      match if isAdmissible store.limits key then
          (store.medium.remove (Utf8.encode key)).outcome ⟨s.state.medium, s.events⟩
        else .ok false with
      | .ok true => .ok ()
      | .ok false => .error (.notFound key)
      | .error fault => .error (.storage fault) := by
  unfold remove
  by_cases hadmissible : isAdmissible store.limits key
  · simp only [hadmissible, ↓reduceIte]
    rw [← lockedOnMedium_outcome (Utf8.encode key) (store.medium.remove (Utf8.encode key)) s]
    unfold Op.outcome
    cases hremove : lockedOnMedium (Utf8.encode key) (store.medium.remove (Utf8.encode key)) s with
    | error fault t =>
      rw [Op.bind_of_error (Op.mapError_of_error hremove)]
    | ok present t =>
      rw [Op.bind_of_ok (Op.mapError_eq_ok_iff.2 hremove)]
      cases present <;> rfl
  · simp only [hadmissible, Bool.false_eq_true, ↓reduceIte]
    rfl

end Outcomes

/-! ### Keys that are listed -/

section Listed

variable {store : Store Mounted} {key : String} {s : Journaled (Session Mounted)}

/-- A store on files lists the keys of its entries, however long they are. -/
theorem keys_outcome (hmedium : store.medium = Archive.medium) (s : Journaled (Session Mounted)) :
    store.keys.outcome s = .ok s.state.medium.archive.entries.keys := by
  have hkeys : onMedium store.medium.keys s =
      .ok (s.state.medium.archive.entries.keys.map Utf8.encode) s := by
    rw [hmedium]
    rfl
  have hsorted := mergeSort_eq_keys (List.Perm.refl s.state.medium.archive.entries.keys)
  unfold Op.outcome keys
  rw [Op.bind_of_ok hkeys, mapM_listedKey]
  exact congrArg Except.ok hsorted

/-- Listing, membership and lookup agree on the key, and if it is listed it can be removed, unless a
    file operation fails; none does where there is room for the generations that are kept. -/
structure AgreesOn (store : Store Mounted) (s : Journaled (Session Mounted)) (listed : List String)
    (key : String) : Prop where
  contains : key ∈ listed ↔ (store.contains key).outcome s = .ok true
  get : key ∈ listed ↔ (store.get key).outcome s ≠ .error (.notFound key)
  remove : key ∈ listed → (store.remove key).outcome s = .ok () ∨
    ∃ fault, (store.remove key).outcome s = .error (.storage fault) ∧ FileSet.IsDiskFault fault
  remove_of_roomy : key ∈ listed →
    s.state.medium.archive.files.Roomy s.state.medium.archive.keep s.state.medium.disk →
      (store.remove key).outcome s = .ok ()

/-- The store answers that there is nothing under the key. -/
structure Denies (store : Store Mounted) (s : Journaled (Session Mounted)) (key : String) :
    Prop where
  contains : (store.contains key).outcome s = .ok false
  get : (store.get key).outcome s = .error (.notFound key)
  remove : (store.remove key).outcome s = .error (.notFound key)

theorem denies_of_not_admissible (h : ¬ isAdmissible store.limits key)
    (s : Journaled (Session Mounted)) : store.Denies s key := by
  refine ⟨?_, get_notFound_iff.2 ?_, ?_⟩
  · rw [contains_outcome, if_neg h]
  · rw [fetch_outcome, if_neg h]
  · rw [remove_outcome, if_neg h]

theorem denies_of_absent (hmedium : store.medium = Archive.medium)
    (h : s.state.medium.archive.entries.contains key = false) : store.Denies s key := by
  by_cases hadmissible : isAdmissible store.limits key
  · have hnone : s.state.medium.archive.entries.get? key = none := by
      simpa [SortedMap.contains] using h
    refine ⟨?_, get_notFound_iff.2 ?_, ?_⟩
    · rw [contains_outcome, if_pos hadmissible, hmedium, Archive.contains_outcome, h]
    · rw [fetch_outcome, if_pos hadmissible, hmedium, Archive.retrieve_outcome (Utf8.decode_encode key), hnone]
      rfl
    · rw [remove_outcome, if_pos hadmissible, hmedium, Archive.remove_outcome_of_absent h]
  · exact denies_of_not_admissible hadmissible s

/-- A store that denies a key agrees with a list that does not have it. -/
theorem Denies.agreesOn {listed : List String} (h : store.Denies s key) (hkey : key ∉ listed) :
    store.AgreesOn s listed key := by
  refine ⟨iff_of_false hkey ?_, iff_of_false hkey fun hget => hget h.get,
    fun hlisted => absurd hlisted hkey, fun hlisted => absurd hlisted hkey⟩
  rw [h.contains]
  simp

theorem agreesOn_of_present {files : FileSet} {listed : List String}
    (hmedium : store.medium = Archive.medium) (hs : Archive.Written files s.state.medium)
    (hkeep : s.state.medium.archive.keep ≠ 0) (hadmissible : isAdmissible store.limits key)
    (hpresent : s.state.medium.archive.entries.contains key) (hkey : key ∈ listed) :
    store.AgreesOn s listed key := by
  refine ⟨iff_of_true hkey ?_, iff_of_true hkey ?_, fun _ => ?_, fun _ hroom => ?_⟩
  · rw [contains_outcome, if_pos hadmissible, hmedium, Archive.contains_outcome, hpresent]
  · intro hget
    have hfetch := get_notFound_iff.1 hget
    obtain ⟨raw, hraw⟩ := Option.isSome_iff_exists.1 hpresent
    rw [fetch_outcome, if_pos hadmissible, hmedium, Archive.retrieve_outcome (Utf8.decode_encode key),
      hraw] at hfetch
    cases hfetch
  · rw [remove_outcome, if_pos hadmissible, hmedium]
    rcases Archive.remove_outcome_of_present (s := ⟨s.state.medium, s.events⟩) hpresent with
      hok | ⟨fault, herror, hfault⟩
    · left
      rw [hok]
    · right
      rw [herror]
      exact ⟨fault, rfl, hfault⟩
  · rw [hs.archive.files_eq] at hroom
    rw [remove_outcome, if_pos hadmissible, hmedium,
      Archive.remove_outcome_of_roomy (s := ⟨s.state.medium, s.events⟩) hs hkeep hroom hpresent]

end Listed

namespace OpenStores

section Listed

variable {ι : Type} {files : FileSet} {start o : OpenStores ι} {i : ι} {opened : OpenStore}

theorem keys_session (hmedium : opened.store.medium = Archive.medium) (o : OpenStores ι)
    (events : List Event) : opened.store.keys.outcome ⟨o.session opened, events⟩ =
      .ok opened.archive.entries.keys := keys_outcome hmedium _

variable [DecidableEq ι]

/-- Whatever stores with whatever settings have been opened on the files of an instance, and whatever
    they have been asked to do: of keys that are no longer than its limit, a store that is open lists
    exactly those that it says are there, finds each of them and can remove it. Of a longer key it
    says that it is not there, does not find it and does not remove it, be it listed or not. -/
theorem listing_agrees_within_limit (hdir : start.disk.isDirectory files.dir)
    (hempty : ∀ slot, files.held start.disk slot = none) (hclosed : ∀ i, start.stores i = none)
    (hreach : Reach files start o) (hopen : o.stores i = some opened) (events : List Event) :
    ∃ listed, opened.store.keys.outcome ⟨o.session opened, events⟩ = .ok listed ∧
      (∀ key ∈ listed, IsKeyText key) ∧
      (∀ key, (Utf8.encode key).length ≤ opened.store.limits.maxKeyBytes →
        opened.store.AgreesOn ⟨o.session opened, events⟩ listed key) ∧
      ∀ key, opened.store.limits.maxKeyBytes < (Utf8.encode key).length →
        opened.store.Denies ⟨o.session opened, events⟩ key := by
  have hstart : Written files start := by
    refine ⟨hdir, FileSet.holdsOnly_of_held_eq_none hempty, ?_⟩
    intro j store hj
    rw [hclosed] at hj
    cases hj
  have hwritten := hreach.written hstart
  have hmounted := hwritten.mounted hopen
  obtain ⟨hmedium, -, hkeep, -, hkeyed⟩ := hwritten.stores i opened hopen
  have hmem : ∀ key, key ∈ opened.archive.entries.keys ↔ opened.archive.entries.contains key :=
    fun _ => SortedMap.mem_keys_iff
  refine ⟨_, keys_session hmedium o events, fun key hkey => hkeyed key ((hmem key).1 hkey), ?_, ?_⟩
  · intro key hshort
    by_cases hpresent : opened.archive.entries.contains key
    · have hadmissible : isAdmissible opened.store.limits key :=
        isAdmissible_iff.2 ⟨hkeyed key hpresent, hshort⟩
      exact agreesOn_of_present hmedium hmounted hkeep hadmissible hpresent ((hmem key).2 hpresent)
    · have hkey := fun hkey => hpresent ((hmem key).1 hkey)
      exact (denies_of_absent hmedium (Bool.not_eq_true _ ▸ hpresent)).agreesOn hkey
  · intro key hlong
    apply denies_of_not_admissible
    intro hadmissible
    exact absurd (isAdmissible_iff.1 hadmissible).2 (Nat.not_le.2 hlong)

end Listed

/-! ### A limit that is lowered -/

namespace Lowered

def files : FileSet := ⟨["d"], 0⟩

def settings (maxKeyBytes : Nat) : Settings := { maxKeyBytes := maxKeyBytes }

/-- A store as it is opened with these settings. -/
def storeOf (maxKeyBytes : Nat) : Store Mounted :=
  ⟨Archive.medium, some Archive.snapshots, .reject, (settings maxKeyBytes).limits, .empty⟩

/-- An empty directory on which no store is open. -/
def start : OpenStores Unit := ⟨Disk.empty.set ["d"] .directory, fun _ => none⟩

/-- A store with a limit of eight bytes on the empty directory. -/
def wide : OpenStore := ⟨storeOf 8, ⟨files, 3, .empty, none⟩, .empty⟩

/-- What that store leaves when it has stored a key of eight bytes. -/
def first : Journaled (Session Mounted) :=
  (Task.put "long-key" .null).after wide.store ⟨start.session wide, []⟩

/-- What it leaves when it has then stored one of three. -/
def second : Journaled (Session Mounted) :=
  (Task.put "key" .null).after wide.store ⟨first.state, []⟩

/-- A store with a limit of four bytes on what has been left. -/
def narrow : OpenStore := ⟨storeOf 4, second.state.medium.archive, .empty⟩

/-- After the first store has been closed and the second has been opened. -/
def reopened : OpenStores Unit := start.put () second.state.medium.disk (some narrow)

/-- What is to be known of a store that has been opened. -/
def described (opened : Store Mounted × Archive) : Uniqueness × Bool × Archive :=
  (opened.1.policy, opened.1.defaults.isEmpty, opened.2)

theorem openWith_eq {maxKeyBytes : Nat} {s : Journaled Disk} {archive : Archive}
    (hopen : ((openWith files.dir (settings maxKeyBytes)).outcome s).map
      described = .ok (.reject, true, archive)) :
    openWith files.dir (settings maxKeyBytes) s =
      .ok (storeOf maxKeyBytes, archive) ((openWith files.dir (settings maxKeyBytes)).after s) := by
  cases houtcome : (openWith files.dir (settings maxKeyBytes)).outcome s with
  | error fault =>
    rw [houtcome] at hopen
    cases hopen
  | ok opened =>
    have hok := Op.eq_ok_of_outcome houtcome
    obtain ⟨⟨medium, snapshots, policy, limits, defaults⟩, archive'⟩ := opened
    obtain ⟨hmedium, hsnapshots, hlimits, -⟩ := openWith_eq_ok hok
    rw [houtcome] at hopen
    obtain ⟨hpolicy, hempty, harchive⟩ : policy = .reject ∧ defaults.isEmpty = true ∧
        archive' = archive := by simpa [Except.map, described] using hopen
    have hdefaults : defaults = .empty := SortedMap.eq_empty_of_isEmpty hempty
    rw [hok]
    dsimp only at hmedium hsnapshots hlimits
    subst hmedium hsnapshots hlimits hpolicy hdefaults harchive
    rfl

/-- The second store is opened after the first, which has stored two keys, has been closed. -/
theorem reach_reopened : Reach files start reopened := by
  have hdir : start.disk.isDirectory files.dir := by decide +kernel
  have hdir' : second.state.medium.disk.isDirectory files.dir := by decide +kernel
  have hwide : ((openWith files.dir (settings 8)).outcome ⟨start.disk, []⟩).map described =
      .ok (.reject, true, wide.archive) := by decide +kernel
  have hnarrow : ((openWith files.dir (settings 4)).outcome ⟨second.state.medium.disk, []⟩).map
      described = .ok (.reject, true, second.state.medium.archive) := by decide +kernel
  have hfirst : (Task.put "long-key" .null).after wide.store
      ⟨⟨⟨start.disk, wide.archive⟩, .empty⟩, []⟩ = first := rfl
  have hsecond : (Task.put "key" .null).after wide.store ⟨first.state, []⟩ = second := rfl
  change Reach files start (start.put () second.state.medium.disk
    (some ⟨storeOf 4, second.state.medium.archive, .empty⟩))
  -- Nothing may be computed from here on.
  generalize second = s₂ at *
  generalize first = s₁ at *
  have hstart : Reach files start (start.put () start.disk none) := .single .closed
  have hopened := hstart.opened rfl hdir (openWith_eq hwide)
  have hasked := (hopened.asked (.put "long-key" .null) hfirst).asked (.put "key" .null) hsecond
  exact hasked.opened rfl hdir' (openWith_eq hnarrow)

theorem held_start (slot : FileSet.Slot) : FileSet.held files start.disk slot = none := by
  have hplace : files.slotPlace slot ≠ ["d"] := by
    intro h
    cases h
  have hlookup := Disk.lookup?_set Disk.empty ["d"] _ .directory (files.slotPlace_ne_root slot)
  rw [if_neg hplace] at hlookup
  exact hlookup

theorem stores_reopened : reopened.stores () = some narrow := by
  rw [reopened, put_stores_self]

theorem keys_narrow : narrow.store.keys.outcome ⟨reopened.session narrow, []⟩ =
    .ok ["key", "long-key"] := by
  have hkeys : narrow.archive.entries.keys = ["key", "long-key"] := by decide +kernel
  have hmedium : narrow.store.medium = Archive.medium := rfl
  rw [keys_session hmedium, hkeys]

end Lowered

open Lowered

/-- The key within the lower limit is there; the longer one is denied. -/
theorem listing_agrees_within_limit_lowered :
    (start.disk.isDirectory files.dir ∧ (∀ slot, FileSet.held files start.disk slot = none) ∧
      (∀ i, start.stores i = none) ∧ Reach files start reopened ∧
      reopened.stores () = some narrow) ∧
    (narrow.store.contains "key").outcome ⟨reopened.session narrow, []⟩ = .ok true ∧
    narrow.store.Denies ⟨reopened.session narrow, []⟩ "long-key" := by
  have hdir : start.disk.isDirectory files.dir := by decide +kernel
  have hclosed : ∀ i, start.stores i = none := fun _ => rfl
  obtain ⟨listed, hkeys, -, hagrees, hdenies⟩ :=
    listing_agrees_within_limit hdir held_start hclosed reach_reopened stores_reopened []
  rw [keys_narrow] at hkeys
  cases hkeys
  have hcontains := (hagrees "key" (by decide +kernel)).contains
  exact ⟨⟨hdir, held_start, hclosed, reach_reopened, stores_reopened⟩, hcontains.1 (by decide),
    hdenies "long-key" (by decide +kernel)⟩

/-- A key that a store has stored, and that the next store lists, is not there for that store, cannot
    be fetched and cannot be removed. -/
theorem listed_key_denied :
    Reach files start reopened ∧ reopened.stores () = some narrow ∧
      narrow.store.keys.outcome ⟨reopened.session narrow, []⟩ = .ok ["key", "long-key"] ∧
      (narrow.store.contains "long-key").outcome ⟨reopened.session narrow, []⟩ = .ok false ∧
      (narrow.store.get "long-key").outcome ⟨reopened.session narrow, []⟩ =
        .error (.notFound "long-key") ∧
      (narrow.store.remove "long-key").outcome ⟨reopened.session narrow, []⟩ =
        .error (.notFound "long-key") := by
  have hlong : ¬ isAdmissible narrow.store.limits "long-key" := by decide +kernel
  have hdenies := denies_of_not_admissible hlong ⟨reopened.session narrow, []⟩
  exact ⟨reach_reopened, stores_reopened, keys_narrow, hdenies.contains, hdenies.get,
    hdenies.remove⟩

end OpenStores

end Store

end TypedStore
