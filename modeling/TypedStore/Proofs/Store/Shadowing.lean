/-
  TypedStore/Proofs/Store/Shadowing.lean
  ======================================
  **A default is what a key has as long as nothing else is under it.**

  The operations on defaults look at two maps: the defaults, and what the medium holds. They look at
  the second one in different ways: some ask the medium whether a key is there, others fetch and
  decode what is under it, and some leave out keys that could not have been stored. They agree all the
  same (`Shadows`), in every state and for every key. The defaults are those that a store has been
  given; nothing that it is asked to do changes them (`Life.kept`).

  The theorem for the media that there are is `defaults_shadowed`.
-/
import TypedStore.Proofs.Store.Listing

namespace TypedStore

/-! ### Media that can be looked into -/

namespace Medium

/-- Looking into the medium tells what is there, and changes nothing. -/
structure Tells {σ : Type} (medium : Medium σ) (look : σ → Lookup) : Prop where
  retrieve (name : String) (s : Journaled σ) :
    medium.retrieve (Utf8.encode name) s = .ok (look s.state (Utf8.encode name)) s
  contains (name : String) (s : Journaled σ) :
    medium.contains (Utf8.encode name) s = .ok (look s.state (Utf8.encode name)).isSome s

theorem memory_tells : Memory.medium.Tells SortedMap.get? := ⟨fun _ _ => rfl, fun _ _ => rfl⟩

end Medium

theorem Archive.tells :
    medium.Tells fun s => Lookup.ofMap Json.RawText.bytes s.archive.entries := by
  constructor
  · intro name s
    rw [Lookup.ofMap_encode]
    exact Op.bind_of_ok (keyText_of_ok (Utf8.decode_encode name))
  · intro name s
    rw [Lookup.ofMap_encode, Option.isSome_map]
    exact Op.bind_of_ok (keyText_of_ok (Utf8.decode_encode name))

namespace Store

variable {σ α : Type} {store : Store σ} {key : String} {s t : Journaled (Session σ)}

/-! ### Outcomes -/

theorem getDefault_eq_ok_iff {value : Value} :
    store.getDefault key = .ok value ↔ store.defaults.get? key = some value := by
  unfold getDefault
  cases store.defaults.get? key with
  | none => simp
  | some found => simp

theorem getDefault_eq_error_iff :
    store.getDefault key = .error (.notFound key) ↔ ∀ value, store.getDefault key ≠ .ok value := by
  unfold getDefault
  cases store.defaults.get? key with
  | none => simp
  | some found => simp

/-- Getting a value is fetching and decoding it. -/
theorem get_outcome (store : Store σ) (key : String) (s : Journaled (Session σ)) :
    (store.get key).outcome s =
      match (store.fetch key).outcome s with
      | .error fault => .error (.storage fault)
      | .ok none => .error (.notFound key)
      | .ok (some bytes) => (Value.decodeBytes bytes).mapError (.corrupt key) := by
  unfold Op.outcome get
  cases hfetch : store.fetch key s with
  | error fault t =>
    rw [Op.bind_of_error (Op.mapError_of_error hfetch)]
  | ok found t =>
    rw [Op.bind_of_ok (Op.mapError_eq_ok_iff.2 hfetch)]
    cases found with
    | none => rfl
    | some bytes =>
      dsimp only
      cases Value.decodeBytes bytes with
      | error fault => rfl
      | ok value => rfl

/-- The key that is not found is the one that has been asked for. -/
theorem eq_of_get_notFound {other : String}
    (h : (store.get key).outcome s = .error (.notFound other)) : other = key := by
  rw [get_outcome] at h
  split at h
  · cases h
  · cases h
    rfl
  · next bytes _ =>
    cases hdecode : Value.decodeBytes bytes with
    | ok value =>
      rw [hdecode] at h
      cases h
    | error fault =>
      rw [hdecode] at h
      cases h

/-- Only if nothing is found the default is asked for. -/
theorem getOrDefault_outcome (store : Store σ) (key : String) (s : Journaled (Session σ)) :
    (store.getOrDefault key).outcome s =
      match (store.get key).outcome s with
      | .error (.notFound _) => store.getDefault key
      | result => result := by
  unfold Op.outcome getOrDefault
  cases hget : store.get key s with
  | ok value t =>
    rw [Op.bind_of_ok (Op.attempt_of_ok hget)]
    rfl
  | error fault t =>
    rw [Op.bind_of_ok (Op.attempt_of_error hget)]
    cases fault with
    | notFound _ =>
      dsimp only
      cases store.getDefault key <;> rfl
    | corrupt _ _ => rfl
    | storage _ => rfl

/-- A failure to get anything but what is not there stays. -/
theorem getOrDefault_of_found (h : (store.get key).outcome s ≠ .error (.notFound key)) :
    (store.getOrDefault key).outcome s = (store.get key).outcome s := by
  rw [getOrDefault_outcome]
  split
  · next other hget =>
    rw [eq_of_get_notFound hget] at hget
    exact absurd hget h
  · rfl

theorem isDefault_outcome (store : Store σ) (key : String) (s : Journaled (Session σ)) :
    (store.isDefault key).outcome s =
      if store.defaults.contains key then ((store.contains key).outcome s).map (!·)
      else .ok false := by
  unfold isDefault
  split
  · unfold Op.outcome
    cases hcontains : store.contains key s with
    | ok present t =>
      rw [Op.bind_of_ok hcontains]
      rfl
    | error fault t =>
      rw [Op.bind_of_error hcontains]
      rfl
  · rfl

/-! ### Resetting -/

/-- An operation of the medium that succeeds while a key is locked succeeds, and does, what it would
    without the lock. -/
theorem lockedOnMedium_eq_ok {key : Bytes} {op : Op StorageFault σ α} {a : α}
    (h : lockedOnMedium key op s = .ok a t) :
    ∃ r, op ⟨s.state.medium, s.events⟩ = .ok a r ∧ t.state.medium = r.state := by
  unfold lockedOnMedium withLock onMedium Op.within at h
  dsimp only at h
  cases hop : op ⟨s.state.medium, s.events⟩ with
  | ok a' r =>
    rw [hop] at h
    cases h
    exact ⟨r, rfl, rfl⟩
  | error fault r =>
    rw [hop] at h
    cases h

theorem resetKey_of_no_default (h : ¬ store.defaults.contains key) :
    store.resetKey key s = .error (.notFound key) s := by
  unfold resetKey
  rw [if_neg h]
  rfl

/-- Resetting a key that has a default fails only if the medium does. -/
theorem resetKey_ne_notFound (h : store.defaults.contains key) {other : String} :
    (store.resetKey key).outcome s ≠ .error (.notFound other) := by
  unfold resetKey Op.outcome
  rw [if_pos h]
  cases hremove : lockedOnMedium (Utf8.encode key) (store.medium.remove (Utf8.encode key)) s with
  | ok present t =>
    rw [Op.bind_of_ok (Op.mapError_eq_ok_iff.2 hremove)]
    rintro ⟨⟩
  | error fault t =>
    rw [Op.bind_of_error (Op.mapError_of_error hremove)]
    rintro ⟨⟩

theorem resetKey_eq_ok {u : Unit} (h : store.resetKey key s = .ok u t) :
    store.defaults.contains key ∧ ∃ present r,
      store.medium.remove (Utf8.encode key) ⟨s.state.medium, s.events⟩ = .ok present r ∧
        t.state.medium = r.state := by
  by_cases hdefault : store.defaults.contains key
  · unfold resetKey at h
    rw [if_pos hdefault] at h
    obtain ⟨present, r, hremove, hreport⟩ := Op.bind_eq_ok_iff.1 h
    obtain ⟨r', hop, hmedium⟩ := lockedOnMedium_eq_ok (Op.mapError_eq_ok_iff.1 hremove)
    cases hreport
    exact ⟨hdefault, present, r', hop, hmedium⟩
  · rw [resetKey_of_no_default hdefault] at h
    cases h

theorem resetAll_eq_ok {count : Nat} (h : store.resetAll s = .ok count t) :
    ∃ r, store.medium.clear ⟨s.state.medium, s.events⟩ = .ok count r ∧
      t.state.medium = r.state := by
  obtain ⟨count', between, hclear, hrest⟩ := Op.bind_eq_ok_iff.1 h
  obtain ⟨r, hr, rfl⟩ := Op.within_eq_ok_iff.1 hclear
  cases hrest
  exact ⟨r, hr, rfl⟩

/-! ### Defaults and what is stored -/

theorem exists_getDefault_iff :
    (∃ value, store.getDefault key = .ok value) ↔ store.defaults.contains key := by
  rw [SortedMap.contains, Option.isSome_iff_exists]
  exact exists_congr fun value => getDefault_eq_ok_iff

theorem resetKey_notFound_iff :
    (store.resetKey key).outcome s = .error (.notFound key) ↔
      ∀ value, store.getDefault key ≠ .ok value := by
  rw [← not_exists, exists_getDefault_iff]
  constructor
  · intro hreset hdefault
    exact resetKey_ne_notFound hdefault hreset
  · intro hdefault
    rw [Op.outcome, resetKey_of_no_default hdefault]

/-- The operations on defaults agree with each other and with the operations on what is stored. -/
structure Shadows (store : Store σ) (s : Journaled (Session σ)) : Prop where
  /-- A key has its default just if there is one and nothing is found under the key. -/
  isDefault_iff (key : String) : (store.isDefault key).outcome s = .ok true ↔
    (∃ value, store.getDefault key = .ok value) ∧
      (store.get key).outcome s = .error (.notFound key)
  getOrDefault_of_isDefault (key : String) : (store.isDefault key).outcome s = .ok true →
    (store.getOrDefault key).outcome s = store.getDefault key
  /-- In any other case there is no difference to getting, also if that fails. -/
  getOrDefault_of_not_isDefault (key : String) : (store.isDefault key).outcome s ≠ .ok true →
    (store.getOrDefault key).outcome s = (store.get key).outcome s
  resetKey_notFound_iff (key : String) :
    (store.resetKey key).outcome s = .error (.notFound key) ↔
      ∀ value, store.getDefault key ≠ .ok value
  after_resetKey_notFound (key : String) :
    (store.resetKey key).outcome s = .error (.notFound key) → (store.resetKey key).after s = s
  isDefault_after_resetKey (key : String) : (store.resetKey key).outcome s = .ok () →
    (store.isDefault key).outcome ((store.resetKey key).after s) = .ok true
  get_after_resetKey (key other : String) : (store.resetKey key).outcome s = .ok () →
    other ≠ key →
      (store.get other).outcome ((store.resetKey key).after s) = (store.get other).outcome s
  isDefault_after_resetAll (key : String) (count : Nat) : store.resetAll.outcome s = .ok count →
    (∃ value, store.getDefault key = .ok value) →
      (store.isDefault key).outcome (store.resetAll.after s) = .ok true

section Removal

variable {look : σ → Lookup} {mayFail : StorageFault → Prop}
  (hmap : store.medium.IsMap (fun m found => look m = found) mayFail)
include hmap

/-- A key that has been reset has a default, and it alone is no longer under the keys. -/
theorem look_after_resetKey (h : (store.resetKey key).outcome s = .ok ()) :
    store.defaults.contains key ∧ look ((store.resetKey key).after s).state.medium =
      Function.update (look s.state.medium) (Utf8.encode key) none := by
  obtain ⟨hdefault, present, r, hremove, hmedium⟩ := resetKey_eq_ok (Op.eq_ok_of_outcome h)
  have hpost := (hmap.remove (s := ⟨s.state.medium, s.events⟩) key rfl).post_of_ok hremove
  rw [hmedium]
  exact ⟨hdefault, hpost⟩

theorem look_after_resetAll {count : Nat} (h : store.resetAll.outcome s = .ok count) :
    look (store.resetAll.after s).state.medium = fun _ => none := by
  obtain ⟨r, hclear, hmedium⟩ := resetAll_eq_ok (Op.eq_ok_of_outcome h)
  obtain ⟨listed, -, hanswers⟩ := hmap.clear (s := ⟨s.state.medium, s.events⟩) rfl
  rw [hmedium]
  exact hanswers.post_of_ok hclear

end Removal

section Looking

variable {look : σ → Lookup} (htells : store.medium.Tells look)
include htells

theorem fetch_outcome_of_tells (key : String) (s : Journaled (Session σ)) :
    (store.fetch key).outcome s =
      .ok (if isAdmissible store.limits key then look s.state.medium (Utf8.encode key)
        else none) := by
  rw [fetch_outcome, Op.outcome, htells.retrieve]
  split <;> rfl

theorem contains_outcome_of_tells (key : String) (s : Journaled (Session σ)) :
    (store.contains key).outcome s =
      .ok (if isAdmissible store.limits key then look s.state.medium (Utf8.encode key)
        else none).isSome := by
  rw [contains_outcome, Op.outcome, htells.contains]
  split <;> rfl

/-- Getting a key depends only on what is under this key. -/
theorem get_outcome_congr
    (h : look t.state.medium (Utf8.encode key) = look s.state.medium (Utf8.encode key)) :
    (store.get key).outcome t = (store.get key).outcome s := by
  rw [get_outcome, get_outcome, fetch_outcome_of_tells htells, fetch_outcome_of_tells htells, h]

theorem get_notFound_iff_not_contains :
    (store.get key).outcome s = .error (.notFound key) ↔
      (store.contains key).outcome s = .ok false := by
  rw [get_notFound_iff, fetch_outcome_of_tells htells, contains_outcome_of_tells htells]
  cases (if isAdmissible store.limits key then look s.state.medium (Utf8.encode key) else none) with
  | none => exact iff_of_true rfl rfl
  | some bytes => exact iff_of_false nofun nofun

theorem isDefault_outcome_iff :
    (store.isDefault key).outcome s = .ok true ↔
      store.defaults.contains key ∧ (store.contains key).outcome s = .ok false := by
  rw [isDefault_outcome]
  by_cases hdefault : store.defaults.contains key
  · rw [if_pos hdefault, contains_outcome_of_tells htells]
    cases (if isAdmissible store.limits key then look s.state.medium (Utf8.encode key)
      else none) with
    | none => exact iff_of_true rfl ⟨hdefault, rfl⟩
    | some bytes => exact iff_of_false nofun nofun
  · rw [if_neg hdefault]
    exact iff_of_false nofun fun h => hdefault h.1

/-- A key with nothing under it has its default, if there is one. -/
theorem isDefault_of_look_eq_none (hdefault : store.defaults.contains key)
    (hnone : look s.state.medium (Utf8.encode key) = none) :
    (store.isDefault key).outcome s = .ok true := by
  rw [isDefault_outcome_iff htells, contains_outcome_of_tells htells, hnone, ite_self]
  exact ⟨hdefault, rfl⟩

end Looking

/-! ### The agreement -/

/-- On a medium that keeps a map and can be looked into, the operations on defaults agree in every
    state, whatever is stored. -/
theorem shadows {look : σ → Lookup} {mayFail : StorageFault → Prop}
    (htells : store.medium.Tells look)
    (hmap : store.medium.IsMap (fun m found => look m = found) mayFail)
    (s : Journaled (Session σ)) : store.Shadows s := by
  have hiff : ∀ key, (store.isDefault key).outcome s = .ok true ↔
      (∃ value, store.getDefault key = .ok value) ∧
        (store.get key).outcome s = .error (.notFound key) := by
    intro key
    rw [isDefault_outcome_iff htells, exists_getDefault_iff, get_notFound_iff_not_contains htells]
  refine ⟨hiff, ?_, ?_, fun _ => resetKey_notFound_iff, ?_, ?_, ?_, ?_⟩
  · intro key hisDefault
    rw [getOrDefault_outcome, ((hiff key).1 hisDefault).2]
  · intro key hnot
    by_cases hget : (store.get key).outcome s = .error (.notFound key)
    · have hnone : ∀ value, store.getDefault key ≠ .ok value :=
        fun value hdefault => hnot ((hiff key).2 ⟨⟨value, hdefault⟩, hget⟩)
      rw [getOrDefault_outcome, hget, getDefault_eq_error_iff.2 hnone]
    · exact getOrDefault_of_found hget
  · intro key hreset
    have hnone := mt exists_getDefault_iff.2 (not_exists.2 (resetKey_notFound_iff.1 hreset))
    exact Op.after_of_error (resetKey_of_no_default hnone)
  · intro key hreset
    obtain ⟨hdefault, hlook⟩ := look_after_resetKey hmap hreset
    refine isDefault_of_look_eq_none htells hdefault ?_
    rw [hlook, Function.update_self]
  · intro key other hreset hother
    obtain ⟨-, hlook⟩ := look_after_resetKey hmap hreset
    refine get_outcome_congr htells ?_
    have hbytes : Utf8.encode other ≠ Utf8.encode key := fun heq => hother (Utf8.encode_injective heq)
    rw [hlook, Function.update_of_ne hbytes]
  · intro key count hreset hdefault
    refine isDefault_of_look_eq_none htells (exists_getDefault_iff.1 hdefault) ?_
    rw [look_after_resetAll hmap hreset]

/-! ### Stores that are given defaults -/

/-- What may happen to a store: it is given defaults, which have to be values that could be stored, or
    it is asked to do something. `attached` are the defaults that it has been given, the oldest
    first. -/
inductive Life (store : Store σ) (s : Journaled (Session σ)) :
    (attached : List (String × Value)) → Store σ → Journaled (Session σ) → Prop where
  | start : Life store s [] store s
  | given {attached entries : List (String × Value)} {between next : Store σ}
      {t : Journaled (Session σ)} :
    Life store s attached between t → between.withDefaults entries = .ok next →
      Life store s (attached ++ entries) next t
  | asked {attached : List (String × Value)} {next : Store σ} {t : Journaled (Session σ)}
      (task : Task) :
    Life store s attached next t → Life store s attached next (task.after next t)

theorem withDefault_eq_ok_iff {next : Store σ} {entry : String × Value} :
    store.withDefault entry = .ok next ↔ accept store.limits entry.1 entry.2 = .ok () ∧
      next = { store with defaults := store.defaults.insert entry.1 entry.2 } := by
  unfold withDefault
  cases haccept : accept store.limits entry.1 entry.2 with
  | ok _ =>
    obtain ⟨key, -, hvet⟩ := vet_of_accept haccept
    simp [hvet, eq_comm]
  | error fault => simp [vet_of_not_accept haccept]

/-- A store can be given just those defaults that could be stored, and takes them in their order. -/
theorem withDefaults_eq_ok_iff {next : Store σ} {entries : List (String × Value)} :
    store.withDefaults entries = .ok next ↔
      (∀ entry ∈ entries, accept store.limits entry.1 entry.2 = .ok ()) ∧
        next = { store with
          defaults := entries.foldl (fun m e => m.insert e.1 e.2) store.defaults } := by
  unfold withDefaults
  induction entries generalizing store with
  | nil => simp [eq_comm]
  | cons entry rest ih =>
    rw [List.foldlM_cons, Except.bind_eq_ok_iff, List.forall_mem_cons, and_assoc]
    simp only [withDefault_eq_ok_iff, and_assoc, exists_and_left, exists_eq_left, ih,
      List.foldl_cons]

/-- Whatever a store is asked to do, it works on the same medium and has the defaults that it has
    been given. -/
theorem Life.kept {attached : List (String × Value)} {next : Store σ}
    (h : store.Life s attached next t) (hempty : store.defaults = .empty) :
    next.medium = store.medium ∧ next.defaults = .ofList attached := by
  induction h with
  | start => exact ⟨rfl, hempty⟩
  | given _ hgiven ih =>
    obtain ⟨-, rfl⟩ := withDefaults_eq_ok_iff.1 hgiven
    refine ⟨ih.1, ?_⟩
    dsimp only
    rw [ih.2, SortedMap.ofList, SortedMap.ofList, List.foldl_append]
  | asked _ _ ih => exact ih

/-- The default that a key has been given last. -/
theorem Life.getDefault {attached : List (String × Value)} {next : Store σ}
    (h : store.Life s attached next t) (hempty : store.defaults = .empty) (key : String) :
    next.getDefault key = (attached.reverse.find? (·.1 = key)).elim (.error (.notFound key))
      fun entry => .ok entry.2 := by
  rw [Store.getDefault, (h.kept hempty).2, SortedMap.get?_ofList]
  cases attached.reverse.find? (·.1 = key) <;> rfl

/-- Whatever defaults a store has been given, whatever it has been asked to do, and whatever its medium
    held before, in memory or in files: each key has the default that it has been given last, and the
    operations on defaults agree with each other and with those on what is stored. -/
theorem defaults_shadowed {attached : List (String × Value)} :
    (∀ {store next : Store Memory} {s t : Journaled (Session Memory)},
      store.medium = Memory.medium → store.defaults = .empty → store.Life s attached next t →
      (∀ key, next.getDefault key =
        (attached.reverse.find? (·.1 = key)).elim (.error (.notFound key))
          fun entry => .ok entry.2) ∧ next.Shadows t) ∧
    ∀ {store next : Store Mounted} {s t : Journaled (Session Mounted)},
      store.medium = Archive.medium → store.defaults = .empty → store.Life s attached next t →
      (∀ key, next.getDefault key =
        (attached.reverse.find? (·.1 = key)).elim (.error (.notFound key))
          fun entry => .ok entry.2) ∧ next.Shadows t := by
  constructor
  · intro store next s t hmedium hempty hlife
    have hnext : next.medium = Memory.medium := (hlife.kept hempty).1.trans hmedium
    have htells : next.medium.Tells _ := hnext ▸ Medium.memory_tells
    have hmap : next.medium.IsMap _ _ := hnext ▸ Medium.memory_isMap fun _ => False
    exact ⟨hlife.getDefault hempty, shadows htells hmap t⟩
  · intro store next s t hmedium hempty hlife
    have hnext : next.medium = Archive.medium := (hlife.kept hempty).1.trans hmedium
    have htells : next.medium.Tells _ := hnext ▸ Archive.tells
    have hmap : next.medium.IsMap _ _ := hnext ▸ Archive.isMap
    exact ⟨hlife.getDefault hempty, shadows htells hmap t⟩

/-- A key with bytes under it that are no value, and one that is given a default twice, has a value
    stored and is reset; in memory, and in files. -/
theorem defaults_shadowed_two :
    let torn : Journaled (Session Memory) :=
      ⟨⟨.ofList [(Utf8.encode "torn", [0x7b])], .empty⟩, []⟩
    let files : Journaled (Session Mounted) :=
      ⟨⟨⟨Disk.empty.set ["d"] .directory, ⟨⟨["d"], 0⟩, 3, .empty, none⟩⟩, .empty⟩, []⟩
    (∃ next t, (ephemeral Memory.medium).Life torn
        [("torn", .null), ("key", .null), ("key", .bool true)] next t ∧
      next.getDefault "key" = .ok (.bool true) ∧ next.Shadows t) ∧
    ∃ next t, (ephemeral Archive.medium).Life files [("key", .null)] next t ∧
      next.getDefault "key" = .ok .null ∧ next.Shadows t := by
  intro torn files
  constructor
  · have hfirst : (ephemeral Memory.medium).withDefaults [("torn", .null), ("key", .null)] = .ok _ :=
      withDefaults_eq_ok_iff.2 ⟨by decide +kernel, rfl⟩
    have hgiven := (Life.start (s := torn).given hfirst).given
      (withDefaults_eq_ok_iff.2 ⟨by decide +kernel, rfl⟩ :
        withDefaults _ [("key", .bool true)] = .ok _)
    have hlife := (hgiven.asked (.put "key" (.i32 1))).asked (.resetKey "key")
    obtain ⟨hdefault, hshadows⟩ := defaults_shadowed.1 rfl rfl hlife
    exact ⟨_, _, hlife, hdefault "key", hshadows⟩
  · have hfirst : (ephemeral Archive.medium).withDefaults [("key", .null)] = .ok _ :=
      withDefaults_eq_ok_iff.2 ⟨by decide +kernel, rfl⟩
    have hlife := ((Life.start (s := files).given hfirst).asked (.put "key" (.i32 1))).asked .resetAll
    obtain ⟨hdefault, hshadows⟩ := defaults_shadowed.2 rfl rfl hlife
    exact ⟨_, _, hlife, hdefault "key", hshadows⟩

end Store

end TypedStore
