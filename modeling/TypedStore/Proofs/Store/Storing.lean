/-
  TypedStore/Proofs/Store/Storing.lean
  ====================================
  **Storing a value changes what is under its key, or nothing.**

  A medium may fail to tell whether a key is there, and fail to write, as long as it does so without
  effect (`Medium.FailsCleanly`). In memory, in an archive, and where only the required operations
  are offered, that is the case, whatever bytes are under the keys. On such a medium storing a value
  either ends well, and the key has the text of the value, or with the fault of the first check that
  refuses, and nothing has changed (`putSettled_of_failsCleanly`, `put_ends_at_first_refusal`).
-/
import TypedStore.Proofs.Store.Checks

namespace TypedStore

/-! ### Media that fail without effect -/

/-- Looking for a key leaves what is under the keys, and an answer is right; a write puts the text of
    the value under its key, or fails and leaves what is there. -/
structure Medium.FailsCleanly {σ : Type} (medium : Medium σ) (look : σ → Lookup) : Prop where
  contains_leaves (name : String) (s : Journaled σ) :
    look ((medium.contains (Utf8.encode name)).after s).state = look s.state
  contains_answers {name : String} {s : Journaled σ} {present : Bool} :
    (medium.contains (Utf8.encode name)).outcome s = .ok present →
      present = (look s.state (Utf8.encode name)).isSome
  persist_ok {name : String} {value : Value} {s t : Journaled σ} :
    medium.persist (Utf8.encode name) (Utf8.encode value.encoding) s = .ok () t →
      look t.state = Function.update (look s.state) (Utf8.encode name)
        (some (Utf8.encode value.encoding))
  persist_error {name : String} {value : Value} {fault : StorageFault} {s t : Journaled σ} :
    medium.persist (Utf8.encode name) (Utf8.encode value.encoding) s = .error fault t →
      look t.state = look s.state

theorem Memory.failsCleanly : medium.FailsCleanly SortedMap.get? where
  contains_leaves _ _ := rfl
  contains_answers h := (Except.ok.inj h).symm
  persist_ok h := by
    cases h
    exact SortedMap.get?_insert_eq _ _ _
  persist_error h := by cases h

/-- A text without blanks around it that can be kept as a raw text is kept as it is. -/
theorem Json.RawText.bytes_of_trim {text : String} {raw : RawText}
    (h : ofChars? text.toList = some raw) (htrim : trim text.toList = text.toList) :
    raw.bytes = Utf8.encode text := by
  unfold ofChars? at h
  split at h
  · rw [← Option.some.inj h]
    exact congrArg Utf8.encodeChars htrim
  · cases h

/-- What an archive has to commit to keep an encoded value. -/
theorem Archive.Call.Makes.eq_insert {name : String} {value : Value} {s : Mounted}
    {entries : Json.RawObject}
    (h : Makes s entries (.persist (Utf8.encode name) (Utf8.encode value.encoding))) :
    ∃ raw : Json.RawText, raw.bytes = Utf8.encode value.encoding ∧
      entries = s.archive.entries.insert name raw := by
  obtain ⟨name', text, raw, hname, htext, hraw, rfl⟩ := h
  cases (Utf8.decode_encode name).symm.trans hname
  cases (Utf8.decode_encode value.encoding).symm.trans htext
  exact ⟨raw, Json.RawText.bytes_of_trim hraw value.trim_encoding, rfl⟩

theorem Archive.failsCleanly :
    medium.FailsCleanly fun s => Lookup.ofMap Json.RawText.bytes s.archive.entries where
  contains_leaves name s := by rw [Op.after_of_ok (tells.contains name s)]
  contains_answers {name s _} h := by
    rw [Op.outcome_of_ok (tells.contains name s)] at h
    exact (Except.ok.inj h).symm
  persist_ok {name value s t} h := by
    rcases Call.perform_cases (c := .persist _ _) h with ⟨hidles, -⟩ | ⟨entries, r, hmakes, hreplace, ht⟩
    · exact hidles.elim
    · obtain ⟨raw, hbytes, rfl⟩ := hmakes.eq_insert
      obtain ⟨_, -, rfl⟩ := replace_eq_ok_iff.1 hreplace
      rw [ht, Lookup.ofMap_insert, hbytes]
  persist_error h := steady.persist h

/-- Where looking for a key is fetching what is under it, fetching and writing decide. -/
theorem Medium.failsCleanly_of_retrieve {σ : Type} {medium : Medium σ} {look : σ → Lookup}
    (hcontains : ∀ key, medium.contains key = do return (← medium.retrieve key).isSome)
    (hleaves : ∀ key s, look ((medium.retrieve key).after s).state = look s.state)
    (hanswers : ∀ key s found, (medium.retrieve key).outcome s = .ok found → found = look s.state key)
    (hok : ∀ key value s t, medium.persist key value s = .ok () t →
      look t.state = Function.update (look s.state) key (some value))
    (herror : ∀ key value fault s t, medium.persist key value s = .error fault t →
      look t.state = look s.state) :
    medium.FailsCleanly look where
  contains_leaves name s := by
    have hsame := hleaves (Utf8.encode name) s
    rw [hcontains]
    cases hop : medium.retrieve (Utf8.encode name) s with
    | ok found t =>
      rw [Op.after_of_ok hop] at hsame
      rw [Op.after, Op.bind_of_ok hop]
      exact hsame
    | error fault t =>
      rw [Op.after_of_error hop] at hsame
      rw [Op.after, Op.bind_of_error hop]
      exact hsame
  contains_answers {name s present} h := by
    rw [hcontains] at h
    cases hop : medium.retrieve (Utf8.encode name) s with
    | ok found t =>
      rw [Op.outcome, Op.bind_of_ok hop] at h
      rw [← hanswers _ _ _ (Op.outcome_of_ok hop)]
      exact (Except.ok.inj h).symm
    | error fault t =>
      rw [Op.outcome, Op.bind_of_error hop] at h
      cases h
  persist_ok h := hok _ _ _ _ h
  persist_error h := herror _ _ _ _ _ h

theorem Failing.demand_cases (operation : String) (s : Journaled Failing) :
    demand operation s = .ok () s ∨ demand operation s = .error (.unavailable operation) s := by
  by_cases h : operation ∈ s.state.failing
  · exact .inr (Op.look_of_error (if_pos h))
  · exact .inl (Op.look_of_ok (if_neg h))

theorem Failing.retrieve_cases (key : Bytes) (s : Journaled Failing) :
    medium.retrieve key s = .ok (s.state.entries.get? key) s ∨
      medium.retrieve key s = .error (.unavailable "retrieve") s :=
  (demand_cases "retrieve" s).imp Op.bind_of_ok Op.bind_of_error

theorem Failing.persist_cases (key value : Bytes) (s : Journaled Failing) :
    medium.persist key value s =
        .ok () { s with state := { s.state with entries := s.state.entries.insert key value } } ∨
      medium.persist key value s = .error (.unavailable "persist") s :=
  (demand_cases "persist" s).imp Op.bind_of_ok Op.bind_of_error

/-- Whichever operations fail, they fail without effect. -/
theorem Failing.failsCleanly : medium.FailsCleanly fun s => s.entries.get? := by
  refine Medium.failsCleanly_of_retrieve (fun _ => rfl) ?_ ?_ ?_ ?_
  · intro key s
    rcases retrieve_cases key s with h | h
    · rw [Op.after_of_ok h]
    · rw [Op.after_of_error h]
  · intro key s found hfound
    rcases retrieve_cases key s with h | h
    · rw [Op.outcome_of_ok h] at hfound
      exact (Except.ok.inj hfound).symm
    · rw [Op.outcome_of_error h] at hfound
      cases hfound
  · intro key value s t ht
    rcases persist_cases key value s with h | h
    · cases h.symm.trans ht
      exact SortedMap.get?_insert_eq _ _ _
    · cases h.symm.trans ht
  · intro key value fault s t ht
    rcases persist_cases key value s with h | h
    · cases h.symm.trans ht
    · cases h.symm.trans ht
      rfl

namespace Store

variable {σ : Type} {store : Store σ} {look : σ → Lookup} {key : String} {value : Value}

/-! ### Storing -/

/-- What storing a value comes to, and what is under the keys of the medium afterwards. -/
structure PutSettled (store : Store σ) (look : σ → Lookup) (key : String) (value : Value)
    (s : Journaled (Session σ)) : Prop where
  ok_iff : (store.put key value).outcome s = .ok () ↔
    ∀ check ∈ PutCheck.all, ∀ fault, ¬ store.Refuses key value (underneath s) check fault
  error_iff (fault : PutFault) : (store.put key value).outcome s = .error fault ↔
    FirstRefusal (store.Refuses key value (underneath s)) PutCheck.all fault
  /-- The key is refused as a duplicate if the medium tells that it is there, and it is. -/
  duplicate_iff : store.Refuses key value (underneath s) .existence (.duplicate key) ↔
    store.policy = .reject ∧
      (∃ present, (store.medium.contains (Utf8.encode key)).outcome (underneath s) = .ok present) ∧
      (look s.state.medium (Utf8.encode key)).isSome
  unchanged {fault : PutFault} : (store.put key value).outcome s = .error fault →
    look ((store.put key value).after s).state.medium = look s.state.medium
  written : (store.put key value).outcome s = .ok () →
    look ((store.put key value).after s).state.medium =
      Function.update (look s.state.medium) (Utf8.encode key) (some (Utf8.encode value.encoding))

/-- A default is taken if the checks of its key and value by themselves let it pass. -/
theorem withDefaults_iff (entries : List (String × Value)) (s : Journaled σ) :
    (∃ next, store.withDefaults entries = .ok next) ↔
      ∀ entry ∈ entries, ∀ check ∈ PutCheck.ofPair, ∀ fault,
        ¬ store.Refuses entry.1 entry.2 s check fault := by
  simp only [withDefaults_eq_ok_iff, exists_and_left, exists_eq, and_true]
  exact forall₂_congr fun entry _ => settles_accept.eq_ok_iff

section Storing

variable (hmedium : store.medium.FailsCleanly look)
include hmedium

theorem look_beforeWrite (key : String) (s : Journaled σ) :
    look (store.beforeWrite key s).state = look s.state := by
  unfold beforeWrite
  split
  · exact hmedium.contains_leaves key s
  · rfl

theorem refuses_duplicate_iff {s : Journaled σ} :
    store.Refuses key value s .existence (.duplicate key) ↔
      store.policy = .reject ∧
        (∃ present, (store.medium.contains (Utf8.encode key)).outcome s = .ok present) ∧
        (look s.state (Utf8.encode key)).isSome := by
  constructor
  · intro h
    cases h with
    | present hreject htrue =>
      exact ⟨hreject, ⟨true, htrue⟩, (hmedium.contains_answers htrue).symm⟩
  · rintro ⟨hreject, ⟨present, hpresent⟩, hlook⟩
    rw [hmedium.contains_answers hpresent, hlook] at hpresent
    exact .present hreject hpresent

theorem PutCourse.look_eq {s : Journaled σ} {result : Except PutFault Unit} {medium : σ}
    (h : store.PutCourse key value s result medium) :
    (∀ fault, result = .error fault → look medium = look s.state) ∧
      (result = .ok () → look medium = Function.update (look s.state) (Utf8.encode key)
        (some (Utf8.encode value.encoding))) := by
  cases h with
  | refused _ => exact ⟨fun _ _ => rfl, nofun⟩
  | notNew _ _ => exact ⟨fun _ _ => look_beforeWrite hmedium key s, nofun⟩
  | notWritten _ _ hpersist =>
    exact ⟨fun _ _ => (hmedium.persist_error hpersist).trans (look_beforeWrite hmedium key s), nofun⟩
  | written _ _ hpersist =>
    refine ⟨nofun, fun _ => ?_⟩
    rw [hmedium.persist_ok hpersist, look_beforeWrite hmedium]

theorem putSettled_of_failsCleanly (s : Journaled (Session σ)) (key : String) (value : Value) :
    store.PutSettled look key value s := by
  have hsettles := store.settles_put key value s
  have hcourse := store.put_course key value s
  exact {
    ok_iff := hsettles.eq_ok_iff
    error_iff := fun fault => hsettles.eq_error_iff fun _ _ _ => Refuses.unique
    duplicate_iff := refuses_duplicate_iff hmedium
    unchanged := fun h => (hcourse.look_eq hmedium).1 _ h
    written := (hcourse.look_eq hmedium).2 }

end Storing

/-- Storing a value on a medium that fails without effect ends with the fault of the first check that
    refuses, and what is there is left; if none refuses, the key has the text of the value, and the
    rest is left. So it is in memory, and in an archive, whatever is in its directory. The checks of
    the key and the value by themselves also decide what can be a default, on any medium. -/
theorem put_ends_at_first_refusal :
    (∀ {σ : Type} {store : Store σ} {look : σ → Lookup}, store.medium.FailsCleanly look →
      ∀ s key value, store.PutSettled look key value s) ∧
    (∀ {store : Store Memory}, store.medium = Memory.medium →
      ∀ s key value, store.PutSettled SortedMap.get? key value s) ∧
    (∀ {store : Store Mounted}, store.medium = Archive.medium →
      ∀ s key value, store.PutSettled
        (fun s => Lookup.ofMap Json.RawText.bytes s.archive.entries) key value s) ∧
    ∀ {σ : Type} (store : Store σ) (s : Journaled σ) (entries : List (String × Value)),
      (∃ next, store.withDefaults entries = .ok next) ↔
        ∀ entry ∈ entries, ∀ check ∈ PutCheck.ofPair, ∀ fault,
          ¬ store.Refuses entry.1 entry.2 s check fault := by
  refine ⟨?_, ?_, ?_, ?_⟩
  · intro σ store look hmedium
    exact putSettled_of_failsCleanly hmedium
  · intro store hmedium
    exact putSettled_of_failsCleanly (hmedium ▸ Memory.failsCleanly)
  · intro store hmedium
    exact putSettled_of_failsCleanly (hmedium ▸ Archive.failsCleanly)
  · intro σ store s entries
    exact withDefaults_iff entries s

/-- Bytes that are no value are under a key, and cannot be fetched. The key cannot be given a value
    that must be the first; one that replaces what is there is stored. In memory the same value is
    stored. In an archive it is not, since the draft of the data file is a directory. -/
theorem put_ends_at_first_refusal_torn :
    let s : Journaled (Session Failing) :=
      ⟨⟨⟨.ofList [(Utf8.encode "k", [0xff])], ["retrieve"]⟩, .empty⟩, []⟩
    let store : Store Failing := .ephemeral Failing.medium
    let replacing : Store Failing := { store with policy := .overwrite }
    let look : Failing → Lookup := fun s => s.entries.get?
    let memory : Store Memory := .ephemeral Memory.medium
    let empty : Journaled (Session Memory) := ⟨⟨.empty, .empty⟩, []⟩
    let archive : Store Mounted := .ephemeral Archive.medium
    let files : FileSet := ⟨["d"], 0⟩
    let blocked : Disk := (Disk.empty.set ["d"] .directory).set
      (files.slotPlace ⟨.data, 0, true⟩) .directory
    let opened : Journaled (Session Mounted) := ⟨⟨⟨blocked, ⟨files, 3, .empty, none⟩⟩, .empty⟩, []⟩
    (store.medium.FailsCleanly look ∧ replacing.medium.FailsCleanly look) ∧
    ((store.put "k" .null).outcome s = .error (.storage (.unavailable "retrieve")) ∧
      FirstRefusal (store.Refuses "k" .null (underneath s)) PutCheck.all
        (.storage (.unavailable "retrieve")) ∧
      look ((store.put "k" .null).after s).state.medium = look s.state.medium) ∧
    ((replacing.put "k" .null).outcome s = .ok () ∧
      look ((replacing.put "k" .null).after s).state.medium =
        Function.update (look s.state.medium) (Utf8.encode "k")
          (some (Utf8.encode Value.null.encoding))) ∧
    ((memory.put "k" .null).outcome empty = .ok () ∧
      ((memory.put "k" .null).after empty).state.medium.get? =
        Function.update (SortedMap.get? .empty) (Utf8.encode "k")
          (some (Utf8.encode Value.null.encoding))) ∧
    (archive.put "k" .null).outcome opened = .error (.storage (.disk .isDirectory)) ∧
    FirstRefusal (archive.Refuses "k" .null (underneath opened)) PutCheck.all
      (.storage (.disk .isDirectory)) := by
  intro s store replacing look memory empty archive files blocked opened
  have herror : (store.put "k" .null).outcome s = .error (.storage (.unavailable "retrieve")) := by
    decide +kernel
  have hok : (replacing.put "k" .null).outcome s = .ok () := by decide +kernel
  have hmemory : (memory.put "k" .null).outcome empty = .ok () := by decide +kernel
  have harchive : (archive.put "k" .null).outcome opened =
      .error (.storage (.disk .isDirectory)) := by
    decide +kernel
  have hclean : Failing.medium.FailsCleanly look := Failing.failsCleanly
  obtain ⟨hany, hinMemory, hinArchive, -⟩ := put_ends_at_first_refusal
  have hput : store.PutSettled look "k" .null s := hany hclean s "k" .null
  have hreplacing : replacing.PutSettled look "k" .null s := hany hclean s "k" .null
  exact ⟨⟨hclean, hclean⟩, ⟨herror, (hput.error_iff _).1 herror, hput.unchanged herror⟩,
    ⟨hok, hreplacing.written hok⟩, ⟨hmemory, (hinMemory rfl empty "k" .null).written hmemory⟩,
    harchive, ((hinArchive rfl opened "k" .null).error_iff _).1 harchive⟩

end Store

end TypedStore
