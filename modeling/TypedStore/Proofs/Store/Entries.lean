/-
  TypedStore/Proofs/Store/Entries.lean
  ====================================
  **What each operation of a store answers.**

  On a medium that keeps a map, a store whose values are those of a reference answers as the
  reference does, and leaves the reference that it says; unless the medium fails in a way that is
  allowed for.
-/
import Mathlib.Data.List.Perm.Basic
import TypedStore.Proofs.Store.Media
import TypedStore.Proofs.Store.Reference
import TypedStore.Store.Defaults

namespace TypedStore.Store

variable {σ α ε : Type} {rep : σ → Lookup → Prop} {mayFail : StorageFault → Prop}
  {store : Store σ} {m : Reference} {s : Journaled (Session σ)}

/-! ### Values as bytes -/

namespace Reference

/-- What a medium holds for a reference. -/
abbrev look (m : Reference) : Lookup := Lookup.ofMap (fun value => Utf8.encode value.encoding) m

theorem look_encode (m : Reference) (name : String) :
    m.look (Utf8.encode name) = (m.get? name).map fun value => Utf8.encode value.encoding :=
  Lookup.ofMap_encode _ m name

theorem isSome_look (m : Reference) (name : String) :
    (m.look (Utf8.encode name)).isSome = m.contains name := by
  rw [look_encode, Option.isSome_map, SortedMap.contains]

theorem look_insert (m : Reference) (name : String) (value : Value) :
    look (m.insert name value) =
      Function.update m.look (Utf8.encode name) (some (Utf8.encode value.encoding)) :=
  Lookup.ofMap_insert _ m name value

theorem look_erase (m : Reference) (name : String) :
    look (m.erase name) = Function.update m.look (Utf8.encode name) none :=
  Lookup.ofMap_erase _ m name

theorem look_empty : look .empty = fun _ => none := Lookup.ofMap_empty _

end Reference

/-! ### Access to the medium -/

theorem onMedium_answers {op : Op StorageFault σ α} {result : Except StorageFault α}
    {post : σ → Prop} (h : op.Answers mayFail ⟨s.state.medium, s.events⟩ result post) :
    (onMedium op).Answers mayFail s result fun t => post t.medium :=
  h.within fun _ ht => ht

/-- Locking does not change what an operation answers. -/
theorem withLock_answers {p : ε → Prop} {op : Op ε (Session σ) α} {result : Except ε α}
    (post : σ → Prop) {key : Bytes}
    (h : ∀ locks, op.Answers p ⟨⟨s.state.medium, locks⟩, s.events⟩ result fun t => post t.medium) :
    (withLock key op).Answers p s result fun t => post t.medium := by
  have hlocked := h (s.state.locks.acquire key).2
  unfold Op.Answers at hlocked ⊢
  unfold withLock
  dsimp only
  cases hop : op ⟨⟨s.state.medium, (s.state.locks.acquire key).2⟩, s.events⟩ with
  | ok a t =>
    rw [hop] at hlocked
    exact hlocked
  | error e t =>
    rw [hop] at hlocked
    exact hlocked

/-! ### Storing -/

section Admission

variable {limits : Limits} {name : String} {value : Value}

theorem ofText_of_ok (h : checkKey limits name = .ok ()) :
    Key.ofText limits name = .ok ⟨name, h⟩ := by
  unfold Key.ofText
  split
  · rfl
  · next heq =>
    rw [h] at heq
    cases heq

theorem ofText_of_error {reason : KeyFault} (h : checkKey limits name = .error reason) :
    Key.ofText limits name = .error reason := by
  unfold Key.ofText
  split
  · next heq =>
    rw [h] at heq
    cases heq
  · next heq =>
    rw [h] at heq
    rw [Except.error.inj heq]

/-- What is admitted is stored under the key as the text of the value. -/
theorem vet_of_accept (h : accept limits name value = .ok ()) :
    ∃ key : Key limits, key.text = name ∧ vet limits name value = .ok (key, value.encoding) := by
  obtain ⟨hkey, hdomain, hlength⟩ := Reference.accept_eq_ok h
  refine ⟨⟨name, hkey⟩, rfl, ?_⟩
  change limits.checkValueLength (value.storedLength value.encoding) = .ok () at hlength
  simp [vet, ofText_of_ok hkey, hdomain, hlength]

theorem vet_of_not_accept {fault : PutFault} (h : accept limits name value = .error fault) :
    vet limits name value = .error fault := by
  unfold accept at h
  unfold vet
  cases hkey : checkKey limits name with
  | error reason =>
    simp only [hkey, Except.mapError_error, Except.error_bind] at h
    simp only [ofText_of_error hkey, Except.mapError_error, Except.error_bind]
    rw [Except.error.inj h]
  | ok _ =>
    rw [hkey] at h
    rw [ofText_of_ok hkey]
    cases hdomain : value.checkDomain with
    | error reason =>
      simp only [hdomain, Except.mapError_error, Except.mapError_ok, Except.ok_bind,
        Except.error_bind] at h
      simp only [Except.mapError_error, Except.mapError_ok, Except.ok_bind, Except.error_bind]
      rw [Except.error.inj h]
    | ok _ =>
      cases hlength : limits.checkValueLength value.length with
      | error reason =>
        simp only [hdomain, hlength, Except.mapError_error, Except.mapError_ok,
          Except.ok_bind] at h
        change limits.checkValueLength (value.storedLength value.encoding) = _ at hlength
        simp only [hlength, Except.mapError_error, Except.mapError_ok, Except.ok_bind,
          Except.error_bind]
        rw [Except.error.inj h]
      | ok _ =>
        simp only [hdomain, hlength, Except.mapError_ok, Except.ok_bind] at h
        cases h

end Admission

/-- The faults of storing that come from the medium. -/
def putMayFail (mayFail : StorageFault → Prop) : PutFault → Prop
  | .storage fault => mayFail fault
  | _ => False

/-- Reporting a refusal changes nothing. -/
theorem put_answers_of_checked {p : PutFault → Prop} {name : String} {value : Value}
    {result : Except PutFault Unit} {post : Session σ → Prop}
    (h : (store.putChecked name value).Answers p s result post) :
    (store.put name value).Answers p s result post := by
  unfold Op.Answers at h ⊢
  unfold put
  cases hop : store.putChecked name value s with
  | ok _ t =>
    rw [hop] at h
    rw [Op.bind_of_ok (Op.attempt_of_ok hop)]
    exact h
  | error fault t =>
    rw [hop] at h
    rw [Op.bind_of_ok (Op.attempt_of_error hop)]
    exact h

theorem persist_answers (h : store.medium.IsMap rep mayFail) (hrep : rep s.state.medium m.look)
    (key : Key store.limits) {value : Value} (hdistinct : value.Distinct)
    (hdomain : value.checkDomain = .ok ()) :
    Op.Answers (putMayFail mayFail) (do
        (onMedium (store.medium.persist key.bytes (Utf8.encode value.encoding))).mapError
          PutFault.storage
        Op.report (.stored key.text value.encoding)) s (.ok ())
      fun t => rep t.medium (Reference.look (m.insert key.text value)) := by
  have hpersist := onMedium_answers (h.persist key.text hrep hdistinct hdomain)
  rw [← Reference.look_insert] at hpersist
  have hmapped : ((onMedium (store.medium.persist key.bytes (Utf8.encode value.encoding))).mapError
      PutFault.storage).Answers (putMayFail mayFail) s (.ok ()) _ :=
    hpersist.mapError fun _ hfault => hfault
  exact hmapped.bind fun t ht => Op.answers_of_ok rfl ht

theorem putChecked_answers (h : store.medium.IsMap rep mayFail) (hrep : rep s.state.medium m.look)
    (name : String) {value : Value} (hdistinct : value.Distinct) {result : Except PutFault Unit}
    {next : Reference}
    (hstep : m.put store.limits store.policy name value = (result, next)) :
    (store.putChecked name value).Answers (putMayFail mayFail) s result
      fun t => rep t.medium next.look := by
  cases haccept : accept store.limits name value with
  | error fault =>
    simp only [Reference.put, haccept, Prod.mk.injEq] at hstep
    obtain ⟨rfl, rfl⟩ := hstep
    refine Op.Answers.bind_error (Op.answers_of_error ?_ hrep)
    exact Op.look_of_error (vet_of_not_accept haccept)
  | ok _ =>
    obtain ⟨key, rfl, hvet⟩ := vet_of_accept haccept
    obtain ⟨-, hdomain, -⟩ := Reference.accept_eq_ok haccept
    have hvetted : (Op.ofExcept (vet store.limits key.text value)).Answers (putMayFail mayFail) s
        (.ok (key, value.encoding)) fun t => rep t.medium m.look :=
      Op.answers_of_ok (Op.look_of_ok hvet) hrep
    apply hvetted.bind
    intro r hr
    apply withLock_answers (rep · next.look)
    intro locks
    simp only [Reference.put, haccept] at hstep
    by_cases hreject : store.policy = .reject
    · have hcontains := onMedium_answers (s := ⟨⟨r.state.medium, locks⟩, r.events⟩)
        (h.contains key.text hr)
      rw [Reference.isSome_look] at hcontains
      have hmapped : ((onMedium (store.medium.contains key.bytes)).mapError
          PutFault.storage).Answers (putMayFail mayFail) ⟨⟨r.state.medium, locks⟩, r.events⟩
          (.ok (m.contains key.text)) fun t => rep t.medium m.look :=
        hcontains.mapError fun _ hfault => hfault
      simp only [hreject, ↓reduceIte, true_and] at hstep ⊢
      apply hmapped.bind
      intro t ht
      by_cases hpresent : m.contains key.text
      · simp only [hpresent, ↓reduceIte, Prod.mk.injEq] at hstep ⊢
        obtain ⟨rfl, rfl⟩ := hstep
        exact Op.Answers.bind_error (Op.answers_of_error rfl ht)
      · simp only [hpresent, Bool.false_eq_true, ↓reduceIte, Prod.mk.injEq] at hstep ⊢
        obtain ⟨rfl, rfl⟩ := hstep
        exact persist_answers h ht key hdistinct hdomain
    · simp only [hreject, ↓reduceIte, false_and, Prod.mk.injEq] at hstep ⊢
      obtain ⟨rfl, rfl⟩ := hstep
      exact persist_answers (s := ⟨⟨r.state.medium, locks⟩, r.events⟩) h hr key hdistinct hdomain

/-! ### Fetching -/

/-- The faults of fetching that come from the medium. -/
def getMayFail (mayFail : StorageFault → Prop) : GetFault → Prop
  | .storage fault => mayFail fault
  | _ => False

theorem fetch_answers (h : store.medium.IsMap rep mayFail) (hrep : rep s.state.medium m.look)
    (hsound : m.Sound store.limits) (name : String) :
    (store.fetch name).Answers mayFail s
      (.ok ((m.get? name).map fun value => Utf8.encode value.encoding))
      fun t => rep t.medium m.look := by
  unfold fetch
  by_cases hadmissible : isAdmissible store.limits name
  · rw [if_pos hadmissible, ← Reference.look_encode]
    exact withLock_answers (rep · m.look) fun locks =>
      onMedium_answers (s := ⟨⟨s.state.medium, locks⟩, s.events⟩) (h.retrieve name hrep)
  · rw [if_neg hadmissible, hsound.get?_of_not_admissible hadmissible]
    exact Op.answers_of_ok rfl hrep

theorem get_answers (h : store.medium.IsMap rep mayFail) (hrep : rep s.state.medium m.look)
    (hsound : m.Sound store.limits) (name : String) :
    (store.get name).Answers (getMayFail mayFail) s
      ((m.get? name).elim (.error (.notFound name)) .ok) fun t => rep t.medium m.look := by
  have hfetch : ((store.fetch name).mapError GetFault.storage).Answers (getMayFail mayFail) s
      (.ok ((m.get? name).map fun value => Utf8.encode value.encoding))
      fun t => rep t.medium m.look :=
    (fetch_answers h hrep hsound name).mapError fun _ hfault => hfault
  apply hfetch.bind
  intro t ht
  cases hget : m.get? name with
  | none => exact Op.answers_of_error rfl ht
  | some value =>
    have hdecode := Value.decodeBytes_encoding (hsound.distinct hget) (hsound.domain hget)
    simp only [Option.map_some, hdecode]
    exact Op.answers_of_ok rfl ht

theorem contains_answers (h : store.medium.IsMap rep mayFail) (hrep : rep s.state.medium m.look)
    (hsound : m.Sound store.limits) (name : String) :
    (store.contains name).Answers mayFail s (.ok (m.contains name))
      fun t => rep t.medium m.look := by
  unfold contains
  by_cases hadmissible : isAdmissible store.limits name
  · rw [if_pos hadmissible, ← Reference.isSome_look]
    exact onMedium_answers (h.contains name hrep)
  · rw [if_neg hadmissible, SortedMap.contains, hsound.get?_of_not_admissible hadmissible]
    exact Op.answers_of_ok rfl hrep

/-! ### Listing -/

/-- Listed keys that are the bytes of texts are read as these texts. -/
theorem mapM_listedKey (names : List String) :
    (names.map Utf8.encode).mapM listedKey = .ok names := by
  induction names with
  | nil => rfl
  | cons name rest ih =>
    have hname : listedKey (Utf8.encode name) = .ok name := by
      rw [listedKey, Utf8.decode_encode]
      rfl
    rw [List.map_cons, List.mapM_cons, hname, ih]
    rfl

theorem exists_names {listed : List Bytes} {names : List String}
    (h : listed.Perm (names.map Utf8.encode)) :
    ∃ texts : List String, listed = texts.map Utf8.encode ∧ texts.Perm names := by
  have htexts : listed =
      (listed.map fun key => (Utf8.decode key).toOption.getD "").map Utf8.encode := by
    rw [List.map_map]
    refine ((List.map_congr_left ?_).trans (List.map_id listed)).symm
    intro key hkey
    obtain ⟨name, -, rfl⟩ := List.mem_map.1 (h.mem_iff.1 hkey)
    rw [Function.comp, Utf8.decode_encode]
    rfl
  generalize listed.map (fun key => (Utf8.decode key).toOption.getD "") = texts at htexts
  subst htexts
  exact ⟨texts, rfl, (List.map_perm_map_iff fun _ _ => Utf8.encode_injective).1 h⟩

/-- Sorting gives the keys of a map in the order in which the map has them. -/
theorem mergeSort_eq_keys {m : SortedMap String α} {texts : List String} (h : texts.Perm m.keys) :
    (texts.mergeSort fun a b => (compare a b).isLE) = m.keys := by
  have htotal : ∀ a b : String, (compare a b).isLE || (compare b a).isLE := by
    intro a b
    have hswap : compare b a = (compare a b).swap := Std.OrientedCmp.eq_swap
    rw [hswap]
    cases compare a b <;> rfl
  have hsorted : (texts.mergeSort fun a b => (compare a b).isLE).Pairwise
      fun a b => (compare a b).isLE :=
    List.pairwise_mergeSort (fun a b c => Std.TransCmp.isLE_trans) htotal texts
  have hkeys : m.keys.Pairwise fun a b => (compare a b).isLE := by
    refine List.Pairwise.map _ ?_ m.ascending
    intro a b hlt
    rw [hlt]
    rfl
  refine ((List.mergeSort_perm _ _).trans h).eq_of_pairwise ?_ hsorted hkeys
  intro a b _ _ hab hba
  exact Std.LawfulEqCmp.eq_of_compare (Std.OrientedCmp.isLE_antisymm hab hba)

theorem keys_answers (h : store.medium.IsMap rep mayFail) (hrep : rep s.state.medium m.look) :
    store.keys.Answers mayFail s (.ok m.keys) fun t => rep t.medium m.look := by
  obtain ⟨listed, hlists, hkeys⟩ := h.keys (s := ⟨s.state.medium, s.events⟩) hrep
  obtain ⟨texts, rfl, hperm⟩ := exists_names (hlists.perm (Lookup.lists_ofMap _ m))
  apply (onMedium_answers hkeys).bind
  intro t ht
  rw [mapM_listedKey]
  refine Op.answers_of_ok (t := t) ?_ ht
  rw [← mergeSort_eq_keys hperm]
  rfl

/-! ### Removing -/

/-- The faults of removing that come from the medium. -/
def removeMayFail (mayFail : StorageFault → Prop) : RemoveFault → Prop
  | .storage fault => mayFail fault
  | _ => False

theorem remove_answers (h : store.medium.IsMap rep mayFail) (hrep : rep s.state.medium m.look)
    (hsound : m.Sound store.limits) (name : String) :
    (store.remove name).Answers (removeMayFail mayFail) s
      (if m.contains name then .ok () else .error (.notFound name))
      fun t => rep t.medium (Reference.look (m.erase name)) := by
  unfold remove
  by_cases hadmissible : isAdmissible store.limits name
  · have hlocked : (lockedOnMedium (Utf8.encode name)
        (store.medium.remove (Utf8.encode name))).Answers mayFail s _ _ :=
      withLock_answers (rep · (Function.update m.look (Utf8.encode name) none)) fun locks =>
        onMedium_answers (s := ⟨⟨s.state.medium, locks⟩, s.events⟩) (h.remove name hrep)
    rw [Reference.isSome_look, ← Reference.look_erase] at hlocked
    have hremove : ((lockedOnMedium (Utf8.encode name)
        (store.medium.remove (Utf8.encode name))).mapError RemoveFault.storage).Answers
        (removeMayFail mayFail) s (.ok (m.contains name)) _ :=
      hlocked.mapError fun _ hfault => hfault
    simp only [hadmissible, ↓reduceIte]
    apply hremove.bind
    intro t ht
    by_cases hcontains : m.contains name
    · simp only [hcontains, ↓reduceIte]
      exact Op.answers_of_ok rfl ht
    · simp only [hcontains, Bool.false_eq_true, ↓reduceIte]
      exact Op.answers_of_error rfl ht
  · have hnone := hsound.get?_of_not_admissible hadmissible
    simp only [hadmissible, Bool.false_eq_true, ↓reduceIte]
    rw [SortedMap.erase_eq_self hnone, SortedMap.contains, hnone]
    exact Op.answers_of_error rfl hrep

theorem resetAll_answers (h : store.medium.IsMap rep mayFail) (hrep : rep s.state.medium m.look) :
    store.resetAll.Answers mayFail s (.ok m.size)
      fun t => rep t.medium (Reference.look .empty) := by
  obtain ⟨listed, hlists, hclear⟩ := h.clear (s := ⟨s.state.medium, s.events⟩) hrep
  have hsize : listed.length = m.size := by
    rw [(hlists.perm (Lookup.lists_ofMap _ m)).length_eq, List.length_map, SortedMap.length_keys]
  rw [hsize] at hclear
  refine (onMedium_answers hclear).bind fun t ht => Op.answers_of_ok rfl ?_
  rw [Reference.look_empty]
  exact ht

end TypedStore.Store
