/-
  TypedStore/Proofs/Store/Ledger.lean
  ===================================
  **The journal tells what is stored.**

  The events of level info that tell of changes can be replayed on an empty map: a value has been
  stored under a key, a key has been removed or reset, all keys have been reset. Whatever a store is
  asked to do, and whether it succeeds or not, what it reports accounts for what becomes of its medium
  (`Accounts`). So after any run the replay of the journal is what the medium holds, and what has been
  retrieved is what had been reported as stored (`journal_faithful`).

  A call that fails must not change what is under the keys (`Medium.Steady`), since it reports no
  change. How a medium fails is open apart from that: the files of an archive may be tampered with
  between the calls, so that any commit may fail.
-/
import TypedStore.Proofs.Archive.Reports
import TypedStore.Proofs.Replay
import TypedStore.Proofs.Store.Shadowing

namespace TypedStore

/-! ### What media report -/

namespace Event

variable {m : SortedMap String String} {events : List Event}

theorem apply_of_ofCommit {event : Event} (h : event.OfCommit) : event.apply m = m := by
  cases event <;> first | rfl | exact h.elim

theorem replayOn_of_ofCommit (h : ∀ event ∈ events, event.OfCommit) : replayOn m events = m := by
  induction events with
  | nil => rfl
  | cons event rest ih =>
    obtain ⟨hevent, hrest⟩ := List.forall_mem_cons.1 h
    rw [← List.singleton_append, replayOn_append, replayOn_singleton, apply_of_ofCommit hevent,
      ih hrest]

/-- The event tells whether a value has been stored. -/
def tellsOfPut : Event → Bool
  | .stored .. | .putRejected .. => true
  | _ => false

theorem not_tellsOfPut_of_ofCommit {event : Event} (h : event.OfCommit) : ¬ event.tellsOfPut := by
  cases event <;> first | exact Bool.false_ne_true | exact h.elim

theorem sourced_of_ofCommit (h : ∀ event ∈ events, event.OfCommit) : Sourced m events := by
  rintro before key text after rfl
  exact (h (.retrieved key text) (by simp)).elim

end Event

/-! ### Media that fail without effect -/

/-- A call that fails, and any listing of keys, leaves what is under the keys. -/
structure Medium.Steady {σ : Type} (medium : Medium σ) (look : σ → Lookup) : Prop where
  persist {key value : Bytes} {fault : StorageFault} {s t : Journaled σ} :
    medium.persist key value s = .error fault t → look t.state = look s.state
  remove {key : Bytes} {fault : StorageFault} {s t : Journaled σ} :
    medium.remove key s = .error fault t → look t.state = look s.state
  clear {fault : StorageFault} {s t : Journaled σ} :
    medium.clear s = .error fault t → look t.state = look s.state
  keys (s : Journaled σ) : look (medium.keys.after s).state = look s.state

namespace Memory

theorem quiet : medium.Quiet where
  persist _ _ := Op.reports_state.bind fun _ => Op.reports_setState _
  retrieve _ := Op.reports_state.bind fun _ => Op.reports_pure _
  remove _ := Op.reports_state.bind fun _ => (Op.reports_setState _).bind fun _ => Op.reports_pure _
  keys := Op.reports_state.bind fun _ => Op.reports_pure _
  contains _ := Op.reports_state.bind fun _ => Op.reports_pure _
  clear := Op.reports_state.bind fun _ => (Op.reports_setState _).bind fun _ => Op.reports_pure _

theorem steady : medium.Steady SortedMap.get? := ⟨nofun, nofun, nofun, fun _ => rfl⟩

end Memory

namespace Archive

theorem steady : medium.Steady fun s => Lookup.ofMap Json.RawText.bytes s.archive.entries where
  persist h := by rw [persist_error h]
  remove h := by rw [remove_error h]
  clear h := by rw [clear_error h]
  keys _ := rfl

end Archive

namespace Store

variable {σ ε α : Type} {store : Store σ} {look : σ → Lookup} {m : SortedMap String String}
  {s : Journaled (Session σ)} {key : String}

/-! ### Access to the medium -/

/-- The medium is one of a kind, and these events have been reported after those of the medium. -/
def Told (p : σ → Prop) (events : List Event) (t : Session σ) (emitted : List Event) : Prop :=
  p t.medium ∧ ∃ noise, (∀ event ∈ noise, event.OfCommit) ∧ emitted = noise ++ events

theorem told_of_silent {p : σ → Prop} {t : Session σ} {events : List Event} (h : p t.medium) :
    Told p events t events := ⟨h, [], List.forall_mem_nil _, rfl⟩

theorem Told.prepend {p : σ → Prop} {t : Session σ} {noise events emitted : List Event}
    (h : Told p events t emitted) (hnoise : ∀ event ∈ noise, event.OfCommit) :
    Told p events t (noise ++ emitted) := by
  obtain ⟨hp, after, hafter, rfl⟩ := h
  exact ⟨hp, noise ++ after, List.forall_mem_append.2 ⟨hnoise, hafter⟩,
    (List.append_assoc _ _ _).symm⟩

/-- Only the medium has reported anything. -/
theorem Told.noise {p : σ → Prop} {t : Session σ} {emitted : List Event} (h : Told p [] t emitted) :
    ∀ event ∈ emitted, event.OfCommit := by
  obtain ⟨-, noise, hnoise, rfl⟩ := h
  rw [List.append_nil]
  exact hnoise

/-- What an operation of the medium does to it, and that it reports nothing else. -/
theorem onMedium_told {op : Op StorageFault σ α} {ok : α → σ → Prop} {fail : σ → Prop}
    (hquiet : op.Reports Event.OfCommit)
    (hok : ∀ a r, op ⟨s.state.medium, s.events⟩ = .ok a r → ok a r.state)
    (hfail : ∀ e r, op ⟨s.state.medium, s.events⟩ = .error e r → fail r.state) :
    (onMedium op).Ends s (fun a => Told (ok a) []) fun _ => Told fail [] := by
  refine Op.Ends.within ((hquiet.ends hok fun e r => hfail e r).mono ?_ ?_)
  · rintro a t emitted ⟨ha, hnoise⟩
    exact ⟨ha, emitted, hnoise, (List.append_nil _).symm⟩
  · rintro e t emitted ⟨he, hnoise⟩
    exact ⟨he, emitted, hnoise, (List.append_nil _).symm⟩

/-- Locking changes neither. -/
theorem withLock_told {op : Op ε (Session σ) α} {ok : α → σ → Prop} {fail : ε → σ → Prop}
    {okEvents : α → List Event} {failEvents : ε → List Event} (key : Bytes)
    (h : ∀ locks, op.Ends ⟨⟨s.state.medium, locks⟩, s.events⟩
      (fun a => Told (ok a) (okEvents a)) fun e => Told (fail e) (failEvents e)) :
    (withLock key op).Ends s (fun a => Told (ok a) (okEvents a))
      fun e => Told (fail e) (failEvents e) := by
  have hlocked := h (s.state.locks.acquire key).2
  unfold Op.Ends Op.EndsFrom at hlocked ⊢
  unfold withLock
  dsimp only
  cases hop : op ⟨⟨s.state.medium, (s.state.locks.acquire key).2⟩, s.events⟩ with
  | ok a t =>
    rw [hop] at hlocked
    exact hlocked
  | error e t =>
    rw [hop] at hlocked
    exact hlocked

/-! ### Storing -/

/-- Persisting some bytes turns media of one kind into media of another. Looking whether the key is
    there, and a failure to persist, leave them of the first kind. -/
structure Writes (store : Store σ) (key : String) (value : Value) (unchanged written : σ → Prop) :
    Prop where
  contains {s : Journaled σ} : unchanged s.state →
    unchanged ((store.medium.contains (Utf8.encode key)).after s).state
  ok {s t : Journaled σ} : value.checkDomain = .ok () → unchanged s.state →
    store.medium.persist (Utf8.encode key) (Utf8.encode value.encoding) s = .ok () t →
      written t.state
  error {s t : Journaled σ} {fault : StorageFault} : unchanged s.state →
    store.medium.persist (Utf8.encode key) (Utf8.encode value.encoding) s = .error fault t →
      unchanged t.state

section Storing

variable {value : Value} {unchanged written : σ → Prop} (hquiet : store.medium.Quiet)
  (hwrites : store.Writes key value unchanged written)
include hquiet hwrites

theorem persist_told (hdomain : value.checkDomain = .ok ()) (hs : unchanged s.state.medium) :
    Op.Ends (do
        (onMedium (store.medium.persist (Utf8.encode key) (Utf8.encode value.encoding))).mapError
          PutFault.storage
        Op.report (.stored key value.encoding)) s
      (fun _ => Told written [.stored key value.encoding]) fun _ => Told unchanged [] := by
  have hpersist : (onMedium (store.medium.persist (Utf8.encode key)
      (Utf8.encode value.encoding))).Ends s (fun _ => Told written []) fun _ => Told unchanged [] :=
    onMedium_told (hquiet.persist _ _) (fun _ _ h => hwrites.ok hdomain hs h)
      fun _ _ h => hwrites.error hs h
  have hmapped : ((onMedium (store.medium.persist (Utf8.encode key)
      (Utf8.encode value.encoding))).mapError PutFault.storage).Ends s (fun _ => Told written [])
      fun _ => Told unchanged [] := hpersist.mapError fun _ _ _ htold => htold
  apply hmapped.bind
  intro _ state before hbefore
  exact Op.ends_report ((told_of_silent hbefore.1).prepend hbefore.noise)

theorem putChecked_told (hs : unchanged s.state.medium) :
    (store.putChecked key value).Ends s (fun _ => Told written [.stored key value.encoding])
      fun _ => Told unchanged [] := by
  cases haccept : accept store.limits key value with
  | error fault =>
    have hvet : Op.ofExcept (vet store.limits key value) s = .error fault s :=
      Op.look_of_error (vet_of_not_accept haccept)
    exact Op.ends_of_error (Op.bind_of_error hvet) (told_of_silent hs)
  | ok _ =>
    obtain ⟨name, rfl, haccepted⟩ := vet_of_accept haccept
    obtain ⟨-, hdomain, -⟩ := Reference.accept_eq_ok haccept
    have hvet : Op.ofExcept (vet store.limits name.text value) s = .ok (name, value.encoding) s :=
      Op.look_of_ok haccepted
    refine (Op.ends_congr (Op.bind_of_ok hvet)).2 (withLock_told name.bytes ?_)
    intro locks
    by_cases hreject : store.policy = .reject
    · simp only [hreject, ↓reduceIte]
      have hcontains : (onMedium (store.medium.contains name.bytes)).Ends
          ⟨⟨s.state.medium, locks⟩, s.events⟩ (fun _ => Told unchanged [])
          fun _ => Told unchanged [] :=
        onMedium_told (hquiet.contains name.bytes)
          (fun _ _ h => Op.after_of_ok h ▸ hwrites.contains hs)
          fun _ _ h => Op.after_of_error h ▸ hwrites.contains hs
      have hmapped : ((onMedium (store.medium.contains name.bytes)).mapError PutFault.storage).Ends
          ⟨⟨s.state.medium, locks⟩, s.events⟩ (fun _ => Told unchanged [])
          fun _ => Told unchanged [] := hcontains.mapError fun _ _ _ htold => htold
      apply hmapped.bind
      intro present state before hbefore
      cases present with
      | true => exact Op.ends_throw_append hbefore
      | false =>
        refine (persist_told hquiet hwrites hdomain hbefore.1).mono ?_ ?_
        · exact fun _ _ _ htold => htold.prepend hbefore.noise
        · exact fun _ _ _ htold => htold.prepend hbefore.noise
    · simp only [hreject, ↓reduceIte]
      exact persist_told hquiet hwrites hdomain hs

/-- Storing a value ends with the one event that tells whether the value has been stored, or why
    not. -/
theorem put_told (hs : unchanged s.state.medium) :
    (store.put key value).Ends s (fun _ => Told written [.stored key value.encoding])
      fun fault => Told unchanged [.putRejected key fault.stage.name fault.reason] := by
  refine (putChecked_told hquiet hwrites hs).attempt_bind ?_ ?_
  · intro _ state before hbefore
    exact Op.ends_pure_append hbefore
  · intro fault state before hbefore
    refine Op.ends_report_bind (Op.ends_throw ?_)
    exact (told_of_silent hbefore.1).prepend hbefore.noise

end Storing

/-! ### Accounts -/

/-- The text is that of a value that can be stored. -/
def IsEncoding (text : String) : Prop :=
  ∃ value : Value, value.Distinct ∧ value.checkDomain = .ok () ∧ text = value.encoding

/-- What decodes the text of a value has this text. -/
theorem IsEncoding.encoding_of_decode {text : String} {value : Value} (h : IsEncoding text)
    (hdecode : Value.decodeBytes (Utf8.encode text) = .ok value) : value.encoding = text := by
  obtain ⟨stored, hdistinct, hdomain, rfl⟩ := h
  rw [Value.decodeBytes_encoding hdistinct hdomain] at hdecode
  rw [Except.ok.inj hdecode]

/-- The medium holds these texts under these keys, and all of them are texts of values. -/
structure Holds (look : σ → Lookup) (m : SortedMap String String) (medium : σ) : Prop where
  look_eq : look medium = Lookup.ofMap Utf8.encode m
  encoded {key text : String} : m.get? key = some text → IsEncoding text

/-- What has been reported accounts for what the medium holds, where it has held `m` before, and for
    what has been retrieved. -/
structure Accounts (look : σ → Lookup) (m : SortedMap String String) (t : Session σ)
    (emitted : List Event) : Prop where
  holds : Holds look (Event.replayOn m emitted) t.medium
  sourced : Event.Sourced m emitted

/-- The operation accounts for what it does, whatever comes of it. -/
def Accounted (look : σ → Lookup) (m : SortedMap String String) (s : Journaled (Session σ))
    (op : Op ε (Session σ) α) : Prop :=
  op.Ends s (fun _ => Accounts look m) fun _ => Accounts look m

section Accounts

variable {t : Session σ} {emitted : List Event}

theorem accounts_nil (h : Holds look m t.medium) : Accounts look m t [] := ⟨h, Event.sourced_nil m⟩

theorem accounts_singleton (event : Event) (h : Holds look (event.apply m) t.medium)
    (hretrieved : ∀ key text, event = .retrieved key text → m.get? key = some text) :
    Accounts look m t [event] :=
  ⟨Event.replayOn_singleton m event ▸ h, Event.sourced_singleton hretrieved⟩

/-- Accounts of what happens one after the other are put together. -/
theorem Accounts.append {u : Session σ} {before after : List Event}
    (h : Accounts look m t before) (hafter : Accounts look (Event.replayOn m before) u after) :
    Accounts look m u (before ++ after) :=
  ⟨Event.replayOn_append m before after ▸ hafter.holds, h.sourced.append hafter.sourced⟩

/-- What the medium reports needs no account. -/
theorem Accounts.prepend {noise : List Event} (h : Accounts look m t emitted)
    (hnoise : ∀ event ∈ noise, event.OfCommit) : Accounts look m t (noise ++ emitted) := by
  have hreplay := Event.replayOn_of_ofCommit (m := m) hnoise
  refine ⟨?_, (Event.sourced_of_ofCommit hnoise).append ?_⟩
  · rw [Event.replayOn_append, hreplay]
    exact h.holds
  · rw [hreplay]
    exact h.sourced

theorem Told.accounts {events : List Event} {p : σ → Prop} (h : Told p events t emitted)
    (haccounts : p t.medium → Accounts look m t events) : Accounts look m t emitted := by
  obtain ⟨hp, noise, hnoise, rfl⟩ := h
  exact (haccounts hp).prepend hnoise

end Accounts

/-! ### What each operation accounts for -/

section Operations

variable {mayFail : StorageFault → Prop} (hquiet : store.medium.Quiet)
  (htells : store.medium.Tells look)
  (hmap : store.medium.IsMap (fun medium found => look medium = found) mayFail)
  (hsteady : store.medium.Steady look) (hs : Holds look m s.state.medium)

include hquiet htells hmap hsteady hs in
theorem put_accounted (key : String) {value : Value} (hdistinct : value.Distinct) :
    Accounted look m s (store.put key value) := by
  have hwrites : store.Writes key value (Holds look m)
      (fun medium => Holds look (m.insert key value.encoding) medium) := by
    refine ⟨?_, ?_, ?_⟩
    · intro r hr
      rw [Op.after_of_ok (htells.contains key r)]
      exact hr
    · intro r t hdomain hr hpersist
      have hpost := (hmap.persist (s := r) key rfl hdistinct hdomain).post_of_ok hpersist
      refine ⟨?_, ?_⟩
      · rw [hpost, Lookup.ofMap_insert, hr.look_eq]
      · intro other text hget
        rw [SortedMap.get?_insert] at hget
        split at hget
        · exact ⟨value, hdistinct, hdomain, (Option.some.inj hget).symm⟩
        · exact hr.encoded hget
    · intro r t fault hr hpersist
      exact ⟨(hsteady.persist hpersist).trans hr.look_eq, hr.encoded⟩
  refine (put_told hquiet hwrites hs).mono ?_ ?_
  · intro _ t emitted htold
    exact htold.accounts fun hheld => accounts_singleton _ hheld fun _ _ => nofun
  · intro fault t emitted htold
    exact htold.accounts fun hheld => accounts_singleton _ hheld fun _ _ => nofun

include htells in
/-- Fetching changes nothing and reports nothing. -/
theorem fetch_ends (key : String) :
    (store.fetch key).Ends s
      (fun found t emitted => t.medium = s.state.medium ∧ emitted = [] ∧
        ∀ bytes, found = some bytes → look s.state.medium (Utf8.encode key) = some bytes)
      fun _ _ _ => False := by
  unfold fetch
  split
  · unfold lockedOnMedium withLock onMedium Op.within
    dsimp only
    unfold Op.Ends
    dsimp only
    rw [htells.retrieve]
    exact ⟨[], (List.append_nil _).symm, rfl, rfl, fun _ h => h⟩
  · exact Op.ends_pure ⟨rfl, rfl, nofun⟩

include htells hs in
/-- A value is retrieved with the text that has been stored. -/
theorem get_accounted (key : String) : Accounted look m s (store.get key) := by
  have hfetch : ((store.fetch key).mapError GetFault.storage).Ends s
      (fun found t emitted => t.medium = s.state.medium ∧ emitted = [] ∧
        ∀ bytes, found = some bytes → look s.state.medium (Utf8.encode key) = some bytes)
      fun _ => Accounts look m :=
    (fetch_ends htells key).mapError fun _ _ _ hfalse => hfalse.elim
  apply hfetch.bind
  rintro found state _ ⟨hmedium, rfl, hfound⟩
  have hheld : Holds look m state.medium := hmedium ▸ hs
  cases found with
  | none =>
    exact Op.ends_report_bind (Op.ends_throw (accounts_singleton _ hheld fun _ _ => nofun))
  | some bytes =>
    dsimp only
    cases hdecode : Value.decodeBytes bytes with
    | error fault =>
      exact Op.ends_report_bind (Op.ends_throw (accounts_singleton _ hheld fun _ _ => nofun))
    | ok value =>
      refine Op.ends_report_bind (Op.ends_pure (accounts_singleton _ hheld ?_))
      rintro _ _ ⟨⟩
      have hlook := hfound bytes rfl
      rw [hs.look_eq, Lookup.ofMap_encode, Option.map_eq_some_iff] at hlook
      obtain ⟨text, htext, rfl⟩ := hlook
      rw [(hs.encoded htext).encoding_of_decode hdecode]
      exact htext

include htells hs in
theorem getOrDefault_accounted (key : String) : Accounted look m s (store.getOrDefault key) := by
  refine (get_accounted htells hs key).attempt_bind ?_ ?_
  · intro value state before hbefore
    exact Op.ends_pure_append hbefore
  · intro fault state before hbefore
    cases fault with
    | notFound _ =>
      rw [← List.append_nil before] at hbefore
      exact Op.ends_look (fun _ _ => hbefore) fun _ _ => hbefore
    | corrupt _ _ => exact Op.ends_throw_append hbefore
    | storage _ => exact Op.ends_throw_append hbefore

include hquiet htells hs in
theorem contains_accounted (key : String) : Accounted look m s (store.contains key) := by
  unfold contains
  split
  · have hcontains : (onMedium (store.medium.contains (Utf8.encode key))).Ends s
        (fun _ => Told (Holds look m) []) fun _ => Told (Holds look m) [] := by
      apply onMedium_told (hquiet.contains _)
      · intro present r h
        rw [htells.contains] at h
        cases h
        exact hs
      · intro fault r h
        rw [htells.contains] at h
        cases h
    exact hcontains.mono (fun _ _ _ htold => htold.accounts accounts_nil)
      fun _ _ _ htold => htold.accounts accounts_nil
  · exact Op.ends_pure (accounts_nil hs)

include hquiet htells hs in
theorem isDefault_accounted (key : String) : Accounted look m s (store.isDefault key) := by
  unfold isDefault
  split
  · apply (contains_accounted hquiet htells hs key).bind
    intro present state before hbefore
    exact Op.ends_pure_append hbefore
  · exact Op.ends_pure (accounts_nil hs)

include hquiet hsteady hs in
theorem keys_accounted : Accounted look m s store.keys := by
  have hkeys : (onMedium store.medium.keys).Ends s (fun _ => Told (Holds look m) [])
      fun _ => Told (Holds look m) [] := by
    have hsame := hsteady.keys ⟨s.state.medium, s.events⟩
    apply onMedium_told hquiet.keys
    · intro listed r h
      rw [Op.after_of_ok h] at hsame
      exact ⟨hsame.trans hs.look_eq, hs.encoded⟩
    · intro fault r h
      rw [Op.after_of_error h] at hsame
      exact ⟨hsame.trans hs.look_eq, hs.encoded⟩
  have haccounted := hkeys.mono (fun _ _ _ htold => htold.accounts accounts_nil)
    fun _ _ _ htold => htold.accounts accounts_nil
  apply haccounted.bind
  intro listed state before hbefore
  rw [← List.append_nil before] at hbefore
  have htexts : (Op.ofExcept (listed.mapM listedKey)).Ends ⟨state, s.events ++ before⟩
      (fun _ t emitted => Accounts look m t (before ++ emitted))
      fun _ t emitted => Accounts look m t (before ++ emitted) :=
    Op.ends_look (fun _ _ => hbefore) fun _ _ => hbefore
  apply htexts.bind
  intro texts t emitted h
  refine Op.ends_pure ?_
  rw [List.append_nil]
  exact h

include hquiet hmap hsteady hs in
/-- What removing a key from the medium does to it. -/
theorem lockedRemove_told (key : String) :
    ((lockedOnMedium (Utf8.encode key) (store.medium.remove (Utf8.encode key))).mapError
      RemoveFault.storage).Ends s
      (fun present => Told (fun medium => Holds look (m.erase key) medium ∧
        (present = false → m.get? key = none)) []) fun _ => Told (Holds look m) [] := by
  have hlocked : (lockedOnMedium (Utf8.encode key) (store.medium.remove (Utf8.encode key))).Ends s
      (fun present => Told (fun medium => Holds look (m.erase key) medium ∧
        (present = false → m.get? key = none)) []) fun _ => Told (Holds look m) [] := by
    apply withLock_told
    intro locks
    apply onMedium_told (hquiet.remove _)
    · intro present r h
      have hanswers := hmap.remove (s := ⟨s.state.medium, s.events⟩) key rfl
      rw [Op.Answers, h] at hanswers
      obtain ⟨hpresent, hpost⟩ := hanswers
      refine ⟨⟨?_, ?_⟩, ?_⟩
      · rw [hpost, Lookup.ofMap_erase, hs.look_eq]
      · intro other text hget
        rw [SortedMap.get?_erase] at hget
        split at hget
        · cases hget
        · exact hs.encoded hget
      · rintro rfl
        have hnone := Except.ok.inj hpresent
        rw [hs.look_eq, Lookup.ofMap_encode, Option.isSome_map] at hnone
        simpa using hnone
    · intro fault r h
      exact ⟨(hsteady.remove h).trans hs.look_eq, hs.encoded⟩
  exact hlocked.mapError fun _ _ _ htold => htold

include hquiet hmap hsteady hs in
theorem remove_accounted (key : String) : Accounted look m s (store.remove key) := by
  unfold remove
  by_cases hadmissible : isAdmissible store.limits key
  · simp only [hadmissible, ↓reduceIte]
    have hremove := (lockedRemove_told hquiet hmap hsteady hs key).mono (fun _ _ _ htold => htold)
      fun _ _ _ htold => htold.accounts accounts_nil
    apply hremove.bind
    intro present state before hbefore
    obtain ⟨herased, habsent⟩ := hbefore.1
    cases present with
    | true =>
      refine Op.ends_report ?_
      exact (accounts_singleton (.removed key) herased fun _ _ => nofun).prepend hbefore.noise
    | false =>
      rw [SortedMap.erase_eq_self (habsent rfl)] at herased
      refine Op.ends_throw ?_
      exact (accounts_nil herased).prepend hbefore.noise
  · simp only [hadmissible, Bool.false_eq_true, ↓reduceIte]
    exact Op.ends_of_error rfl (accounts_nil hs)

include hquiet hmap hsteady hs in
theorem resetKey_accounted (key : String) : Accounted look m s (store.resetKey key) := by
  unfold resetKey
  split
  · have hremove := (lockedRemove_told hquiet hmap hsteady hs key).mono (fun _ _ _ htold => htold)
      fun _ _ _ htold => htold.accounts accounts_nil
    apply hremove.bind
    intro present state before hbefore
    refine Op.ends_report ?_
    exact (accounts_singleton (.resetKey key present) hbefore.1.1 fun _ _ => nofun).prepend hbefore.noise
  · exact Op.ends_throw (accounts_nil hs)

include hquiet hmap hsteady hs in
theorem resetAll_accounted : Accounted look m s store.resetAll := by
  have hclear : (onMedium store.medium.clear).Ends s (fun _ => Told (Holds look .empty) [])
      fun _ => Told (Holds look m) [] := by
    apply onMedium_told hquiet.clear
    · intro count r h
      obtain ⟨listed, -, hanswers⟩ := hmap.clear (s := ⟨s.state.medium, s.events⟩) rfl
      exact ⟨(hanswers.post_of_ok h).trans (Lookup.ofMap_empty _).symm, nofun⟩
    · intro fault r h
      exact ⟨(hsteady.clear h).trans hs.look_eq, hs.encoded⟩
  have haccounted := hclear.mono (fun _ _ _ htold => htold)
      fun _ _ _ htold => htold.accounts accounts_nil
  apply haccounted.bind
  intro count state before hbefore
  refine Op.ends_report_bind (Op.ends_pure ?_)
  exact (accounts_singleton (.resetAll count) hbefore.1 fun _ _ => nofun).prepend hbefore.noise

/-- The task is one that the journal accounts for: everything but making an earlier generation the
    present one. Values have distinct member names. -/
def Task.IsJournaled : Task → Prop
  | .put _ value => value.Distinct
  | .restoreSnapshot _ => False
  | _ => True

include hquiet htells hmap hsteady hs in
/-- Whatever a store is asked to do, and whatever comes of it, it accounts for what it does. -/
theorem Task.accounted {task : Task} (htask : task.IsJournaled) :
    ∃ emitted, (task.after store s).events = s.events ++ emitted ∧
      Accounts look m (task.after store s).state emitted := by
  have hafter : ∀ {ε α : Type} {op : Op ε (Session σ) α}, Accounted look m s op →
      ∃ emitted, (op.after s).events = s.events ++ emitted ∧
        Accounts look m (op.after s).state emitted := by
    intro ε α op hop
    obtain ⟨emitted, hevents, ⟨_, -, h⟩ | ⟨_, -, h⟩⟩ := hop.after
    · exact ⟨emitted, hevents, h⟩
    · exact ⟨emitted, hevents, h⟩
  cases task with
  | put key value => exact hafter (put_accounted hquiet htells hmap hsteady hs key htask)
  | get key => exact hafter (get_accounted htells hs key)
  | getOrDefault key => exact hafter (getOrDefault_accounted htells hs key)
  | contains key => exact hafter (contains_accounted hquiet htells hs key)
  | isDefault key => exact hafter (isDefault_accounted hquiet htells hs key)
  | keys => exact hafter (keys_accounted hquiet hsteady hs)
  | remove key => exact hafter (remove_accounted hquiet hmap hsteady hs key)
  | resetKey key => exact hafter (resetKey_accounted hquiet hmap hsteady hs key)
  | resetAll => exact hafter (resetAll_accounted hquiet hmap hsteady hs)
  | restoreSnapshot id => exact htask.elim

end Operations

/-! ### Runs -/

/-- What may happen after a start: the store is asked to do something, or its medium is tampered with in
    certain ways. -/
inductive Course (store : Store σ) (tampers : σ → σ → Prop) (start : Journaled (Session σ)) :
    Journaled (Session σ) → Prop where
  | start : Course store tampers start start
  | asked {t : Journaled (Session σ)} (task : Task) :
    Course store tampers start t → task.IsJournaled →
      Course store tampers start (task.after store t)
  | tampered {t : Journaled (Session σ)} (medium : σ) :
    Course store tampers start t → tampers t.state.medium medium →
      Course store tampers start ⟨⟨medium, t.state.locks⟩, t.events⟩

/-- After any run the journal accounts for what the medium holds, if it held nothing at first. -/
theorem Course.accounts {tampers : σ → σ → Prop} {mayFail : StorageFault → Prop}
    {t : Journaled (Session σ)} (h : store.Course tampers s t) (hquiet : store.medium.Quiet)
    (htells : store.medium.Tells look)
    (hmap : store.medium.IsMap (fun medium found => look medium = found) mayFail)
    (hsteady : store.medium.Steady look)
    (htampers : ∀ before after, tampers before after → look after = look before)
    (hempty : look s.state.medium = fun _ => none) :
    ∃ emitted, t.events = s.events ++ emitted ∧ Accounts look .empty t.state emitted := by
  induction h with
  | start =>
    refine ⟨[], (List.append_nil _).symm, accounts_nil ⟨?_, nofun⟩⟩
    rw [hempty, Lookup.ofMap_empty]
  | asked task _ htask ih =>
    obtain ⟨before, hbefore, haccounts⟩ := ih
    obtain ⟨emitted, hemitted, hstep⟩ :=
      Task.accounted hquiet htells hmap hsteady haccounts.holds htask
    refine ⟨before ++ emitted, ?_, haccounts.append hstep⟩
    rw [hemitted, hbefore, List.append_assoc]
  | tampered medium _ htampered ih =>
    obtain ⟨emitted, hemitted, haccounts⟩ := ih
    refine ⟨emitted, hemitted, ⟨?_, haccounts.holds.encoded⟩, haccounts.sourced⟩
    exact (htampers _ _ htampered).trans haccounts.holds.look_eq

/-! ### The journal is faithful -/

/-- Replayed, the events give what is stored, and each text that has been retrieved is the one that had
    been stored under the key and not been touched since. -/
structure Faithful (stored : Lookup) (events : List Event) : Prop where
  stored_eq : stored = Lookup.ofMap Utf8.encode (Event.replay events)
  retrieved {before after : List Event} {key text : String} :
    events = before ++ .retrieved key text :: after →
      ∃ first last, before = first ++ .stored key text :: last ∧
        ∀ event ∈ last, ¬ event.Touches key

theorem Accounts.faithful {t : Session σ} {emitted : List Event}
    (h : Accounts look .empty t emitted) : Faithful (look t.medium) emitted :=
  ⟨h.holds.look_eq, fun heq => Event.exists_stored_of_get?_replay (h.sourced _ _ _ _ heq)⟩

/-- What has come of storing a value is reported by one event; if the value has not been stored, that
    event has the stage and the reason of the failure. -/
def ReportsPut (store : Store σ) (s : Journaled (Session σ)) (key : String) (value : Value) : Prop :=
  ∃ emitted, ((store.put key value).after s).events = s.events ++ emitted ∧
    (((store.put key value).outcome s = .ok () ∧
      emitted.filter Event.tellsOfPut = [.stored key value.encoding]) ∨
    ∃ fault, (store.put key value).outcome s = .error fault ∧
      emitted.filter Event.tellsOfPut = [.putRejected key fault.stage.name fault.reason])

theorem reportsPut (hquiet : store.medium.Quiet) (s : Journaled (Session σ)) (key : String)
    (value : Value) : store.ReportsPut s key value := by
  have hwrites : store.Writes key value (fun _ => True) fun _ => True :=
    ⟨fun _ => trivial, fun _ _ _ => trivial, fun _ _ => trivial⟩
  have hfilter : ∀ {noise : List Event} (event : Event), (∀ event ∈ noise, event.OfCommit) →
      event.tellsOfPut → (noise ++ [event]).filter Event.tellsOfPut = [event] := by
    intro noise event hnoise hevent
    have hnone : noise.filter Event.tellsOfPut = [] :=
      List.filter_eq_nil_iff.2 fun other hother => Event.not_tellsOfPut_of_ofCommit (hnoise other hother)
    rw [List.filter_append, hnone, List.nil_append, List.filter_cons_of_pos hevent, List.filter_nil]
  obtain ⟨emitted, hevents, hend⟩ := (put_told hquiet hwrites (s := s) trivial).after
  refine ⟨emitted, hevents, ?_⟩
  rcases hend with ⟨_, houtcome, -, noise, hnoise, rfl⟩ | ⟨fault, houtcome, -, noise, hnoise, rfl⟩
  · exact .inl ⟨houtcome, hfilter _ hnoise rfl⟩
  · exact .inr ⟨fault, houtcome, hfilter _ hnoise rfl⟩

/-- Whatever a store on an empty medium is asked to do, in memory or in files, and whatever comes of it:
    the events that have been reported, replayed on an empty map, give what is stored, and each text
    that is reported as retrieved is that of the event that had reported it as stored. The files may be
    tampered with between the calls, so that commits fail. Each attempt to store a value is reported
    by one event, which tells how it has ended. -/
theorem journal_faithful :
    (∀ {store : Store Memory} {s t : Journaled (Session Memory)}, store.medium = Memory.medium →
      s.state.medium = .empty → store.Course Eq s t →
        ∃ emitted, t.events = s.events ++ emitted ∧ Faithful t.state.medium.get? emitted) ∧
    (∀ {store : Store Mounted} {s t : Journaled (Session Mounted)}, store.medium = Archive.medium →
      s.state.medium.archive.entries = .empty →
      store.Course (fun before after => after.archive = before.archive) s t →
        ∃ emitted, t.events = s.events ++ emitted ∧
          Faithful (Lookup.ofMap Json.RawText.bytes t.state.medium.archive.entries) emitted) ∧
    (∀ {store : Store Memory}, store.medium = Memory.medium →
      ∀ s key value, store.ReportsPut s key value) ∧
    ∀ {store : Store Mounted}, store.medium = Archive.medium →
      ∀ s key value, store.ReportsPut s key value := by
  refine ⟨?_, ?_, ?_, ?_⟩
  · intro store s t hmedium hempty hcourse
    have htells : store.medium.Tells SortedMap.get? := hmedium ▸ Medium.memory_tells
    have hmap : store.medium.IsMap _ _ := hmedium ▸ Medium.memory_isMap fun _ => False
    obtain ⟨emitted, hemitted, haccounts⟩ := hcourse.accounts (hmedium ▸ Memory.quiet) htells hmap
      (hmedium ▸ Memory.steady) (fun _ _ heq => by rw [heq])
      (by rw [hempty]; exact funext SortedMap.get?_empty)
    exact ⟨emitted, hemitted, haccounts.faithful⟩
  · intro store s t hmedium hempty hcourse
    have htells : store.medium.Tells _ := hmedium ▸ Archive.tells
    have hmap : store.medium.IsMap _ _ := hmedium ▸ Archive.isMap
    obtain ⟨emitted, hemitted, haccounts⟩ := hcourse.accounts (hmedium ▸ Archive.quiet) htells hmap
      (hmedium ▸ Archive.steady) (fun _ _ heq => by rw [heq]) (by rw [hempty, Lookup.ofMap_empty])
    exact ⟨emitted, hemitted, haccounts.faithful⟩
  · intro store hmedium
    exact reportsPut (hmedium ▸ Memory.quiet)
  · intro store hmedium
    exact reportsPut (hmedium ▸ Archive.quiet)

/-- A value is stored and retrieved in memory. In files a value is stored, and then the draft of the data
    file is made a directory, so that removing the value fails. -/
theorem journal_faithful_tampered :
    let files : FileSet := ⟨["d"], 0⟩
    let empty : Journaled (Session Memory) := ⟨⟨.empty, .empty⟩, []⟩
    let memory : Store Memory := .ephemeral Memory.medium
    let retrieved := (Task.get "key").after memory ((Task.put "key" (.i32 1)).after memory empty)
    let opened : Journaled (Session Mounted) :=
      ⟨⟨⟨Disk.empty.set ["d"] .directory, ⟨files, 3, .empty, none⟩⟩, .empty⟩, []⟩
    let archive : Store Mounted := .ephemeral Archive.medium
    let stored := (Task.put "key" (.i32 1)).after archive opened
    let blocked : Mounted := { stored.state.medium with
      disk := stored.state.medium.disk.set (files.slotPlace ⟨.data, 0, true⟩) .directory }
    let failed := (Task.remove "key").after archive ⟨⟨blocked, stored.state.locks⟩, stored.events⟩
    (memory.Course Eq empty retrieved ∧
      archive.Course (fun before after => after.archive = before.archive) opened failed) ∧
    (retrieved.events =
        [.stored "key" (Value.i32 1).encoding, .retrieved "key" (Value.i32 1).encoding] ∧
      ∃ emitted, retrieved.events = [] ++ emitted ∧
        Faithful retrieved.state.medium.get? emitted) ∧
    (archive.remove "key").outcome ⟨⟨blocked, stored.state.locks⟩, stored.events⟩ =
      .error (.storage (.disk .isDirectory)) ∧
    (∃ emitted, failed.events = [] ++ emitted ∧
      Faithful (Lookup.ofMap Json.RawText.bytes failed.state.medium.archive.entries) emitted) ∧
    memory.ReportsPut retrieved "key" .null ∧ archive.ReportsPut failed "key" .null := by
  intro files empty memory retrieved opened archive stored blocked failed
  have hmemory : memory.Course Eq empty retrieved :=
    (Course.start.asked (.put "key" (.i32 1)) trivial).asked (.get "key") trivial
  have hstored : archive.Course (fun before after => after.archive = before.archive) opened stored :=
    Course.start.asked (.put "key" (.i32 1)) trivial
  have harchive : archive.Course (fun before after => after.archive = before.archive) opened failed :=
    (hstored.tampered blocked rfl).asked (.remove "key") trivial
  obtain ⟨hfaithful, hfaithful', hput, hput'⟩ := journal_faithful
  refine ⟨⟨hmemory, harchive⟩, ⟨by decide +kernel, hfaithful rfl rfl hmemory⟩, by decide +kernel,
    hfaithful' rfl rfl harchive, hput rfl _ _ _, hput' rfl _ _ _⟩

end Store

end TypedStore
