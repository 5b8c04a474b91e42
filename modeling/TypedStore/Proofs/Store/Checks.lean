/-
  TypedStore/Proofs/Store/Checks.lean
  ===================================
  **What has to go well for a value to be stored.**

  Storing a value is preceded by checks that stand in an order (`PutCheck.all`). Each is described here
  by itself, with the fault that it refuses with (`Store.Refuses`): the first two look at the key, the
  next three at the value, one asks the medium whether the key is there, and the last one is the write.

  Storing goes one of four ways (`PutCourse`), and its steps settle the checks one after the other. So
  it ends with the fault of the first check that refuses, or well if none does (`settles_put`).
-/
import TypedStore.Proofs.FirstRefusal
import TypedStore.Proofs.Store.Ledger
import TypedStore.Proofs.Value.Floats

namespace TypedStore

/-! ### The first character that does not belong -/

theorem Utf8.length_encodeChars_cons (c : Char) (cs : List Char) :
    (encodeChars (c :: cs)).length = c.utf8Size + (encodeChars cs).length := by
  rw [encodeChars, List.flatMap_cons, List.length_append, String.length_utf8EncodeChar]
  rfl

theorem firstInvalid?_eq_some_iff {index place : Nat} {cs : List Char} {c : Char} :
    firstInvalid? index cs = some (c, place) ↔
      ∃ before after, cs = before ++ c :: after ∧ (∀ b ∈ before, isKeyChar b) ∧ ¬ isKeyChar c ∧
        place = index + (Utf8.encodeChars before).length := by
  induction cs generalizing index with
  | nil => simp [firstInvalid?]
  | cons d rest ih =>
    rw [firstInvalid?]
    by_cases hd : isKeyChar d
    · rw [if_pos hd, ih]
      constructor
      · rintro ⟨before, after, rfl, hbefore, hc, rfl⟩
        refine ⟨d :: before, after, rfl, List.forall_mem_cons.2 ⟨hd, hbefore⟩, hc, ?_⟩
        rw [Utf8.length_encodeChars_cons, Nat.add_assoc]
      · rintro ⟨before, after, heq, hbefore, hc, rfl⟩
        cases before with
        | nil =>
          obtain ⟨rfl, -⟩ := List.cons.inj heq
          exact absurd hd hc
        | cons b before =>
          obtain ⟨rfl, rfl⟩ := List.cons.inj heq
          refine ⟨before, after, rfl, (List.forall_mem_cons.1 hbefore).2, hc, ?_⟩
          rw [Utf8.length_encodeChars_cons, Nat.add_assoc]
    · rw [if_neg hd]
      constructor
      · intro h
        obtain ⟨rfl, rfl⟩ := Prod.mk.inj (Option.some.inj h)
        exact ⟨[], rest, rfl, List.forall_mem_nil _, hd, rfl⟩
      · rintro ⟨before, after, heq, hbefore, hc, rfl⟩
        cases before with
        | nil =>
          obtain ⟨rfl, -⟩ := List.cons.inj heq
          rfl
        | cons b before =>
          obtain ⟨rfl, -⟩ := List.cons.inj heq
          exact absurd (hbefore d List.mem_cons_self) hd

namespace Store

/-! ### Checks in an order -/

/-- What a value has to go through to be stored under a key. -/
inductive PutCheck where
  /-- The key consists of characters of keys. -/
  | characters
  | keyLength
  | depth
  /-- All floats in the value are finite. -/
  | floats
  | valueLength
  /-- The key is not there yet, if it must not be. -/
  | existence
  | write
deriving DecidableEq, Repr

/-- The checks of a key and a value by themselves. -/
def PutCheck.ofPair : List PutCheck := [.characters, .keyLength, .depth, .floats, .valueLength]

/-- All checks, in their order. -/
def PutCheck.all : List PutCheck := ofPair ++ [.existence, .write]

/-! ### The checks -/

variable {σ : Type} {store : Store σ} {key : String} {value : Value} {fault : PutFault}

/-- The medium as it is when a value is about to be written: it has been asked for the key, if the key
    must be new. -/
def beforeWrite (store : Store σ) (key : String) (s : Journaled σ) : Journaled σ :=
  if store.policy = .reject then (store.medium.contains (Utf8.encode key)).after s else s

/-- A check refuses a value under a key, on a medium in this state, with this fault. -/
inductive Refuses (store : Store σ) (key : String) (value : Value) (s : Journaled σ) :
    PutCheck → PutFault → Prop where
  | characters {before after : List Char} {c : Char} {place : Nat} :
    key.toList = before ++ c :: after → (∀ b ∈ before, isKeyChar b) → ¬ isKeyChar c →
      place = (Utf8.encodeChars before).length →
        Refuses store key value s .characters (.key (.invalidCharacter c place))
  | keyLength : store.limits.maxKeyBytes < (Utf8.encode key).length →
      Refuses store key value s .keyLength
        (.key (.tooLong (Utf8.encode key).length store.limits.maxKeyBytes))
  | depth : maxDepth < value.depth →
      Refuses store key value s .depth (.value (.tooDeep value.depth))
  | floats {before after : List Binary64} {x : Binary64} :
    value.floats = before ++ x :: after → (∀ y ∈ before, y.isFinite) → ¬ x.isFinite →
      Refuses store key value s .floats (.value (.notFinite x))
  | valueLength : store.limits.maxValueBytes < value.length →
      Refuses store key value s .valueLength (.tooLong value.length store.limits.maxValueBytes)
  /-- The medium cannot tell whether the key is there. -/
  | unanswered {fault : StorageFault} : store.policy = .reject →
    (store.medium.contains (Utf8.encode key)).outcome s = .error fault →
      Refuses store key value s .existence (.storage fault)
  | present : store.policy = .reject →
    (store.medium.contains (Utf8.encode key)).outcome s = .ok true →
      Refuses store key value s .existence (.duplicate key)
  | write {fault : StorageFault} :
    (store.medium.persist (Utf8.encode key) (Utf8.encode value.encoding)).outcome
        (store.beforeWrite key s) = .error fault →
      Refuses store key value s .write (.storage fault)

theorem Refuses.unique {s : Journaled σ} {check : PutCheck} {other : PutFault}
    (h : store.Refuses key value s check fault) (hother : store.Refuses key value s check other) :
    fault = other := by
  cases h with
  | characters heq hbefore hc hplace =>
    cases hother with
    | characters heq' hbefore' hc' hplace' =>
      have hfirst : firstInvalid? 0 key.toList = some (_, _) := firstInvalid?_eq_some_iff.2
        ⟨_, _, heq, hbefore, hc, hplace.trans (Nat.zero_add _).symm⟩
      have hfirst' : firstInvalid? 0 key.toList = some (_, _) := firstInvalid?_eq_some_iff.2
        ⟨_, _, heq', hbefore', hc', hplace'.trans (Nat.zero_add _).symm⟩
      cases hfirst.symm.trans hfirst'
      rfl
  | floats heq hbefore hx =>
    cases hother with
    | floats heq' hbefore' hx' =>
      have hfirst := Value.nonFinite?_eq_some_iff.2 ⟨_, _, heq, hbefore, hx⟩
      have hfirst' := Value.nonFinite?_eq_some_iff.2 ⟨_, _, heq', hbefore', hx'⟩
      cases hfirst.symm.trans hfirst'
      rfl
  | unanswered _ hfault =>
    cases hother with
    | unanswered _ hfault' => rw [Except.error.inj (hfault.symm.trans hfault')]
    | present _ htrue => cases hfault.symm.trans htrue
  | present _ htrue =>
    cases hother with
    | unanswered _ hfault => cases hfault.symm.trans htrue
    | present _ _ => rfl
  | write hfault =>
    cases hother with
    | write hfault' => rw [Except.error.inj (hfault.symm.trans hfault')]
  | _ =>
    cases hother
    rfl

/-! ### How storing goes -/

/-- The medium of a session, with the journal. -/
def underneath (s : Journaled (Session σ)) : Journaled σ := ⟨s.state.medium, s.events⟩

/-- Whether the key is new, if it has to be. -/
def newness (store : Store σ) (key : String) (s : Journaled σ) : Except PutFault Unit :=
  if store.policy = .reject then
    match (store.medium.contains (Utf8.encode key)).outcome s with
    | .error fault => .error (.storage fault)
    | .ok true => .error (.duplicate key)
    | .ok false => .ok ()
  else .ok ()

/-- What comes of storing a value, and what becomes of the medium. -/
inductive PutCourse (store : Store σ) (key : String) (value : Value) (s : Journaled σ) :
    Except PutFault Unit → σ → Prop where
  | refused {fault : PutFault} : accept store.limits key value = .error fault →
      PutCourse store key value s (.error fault) s.state
  | notNew {fault : PutFault} : accept store.limits key value = .ok () →
    store.newness key s = .error fault →
      PutCourse store key value s (.error fault) (store.beforeWrite key s).state
  | notWritten {fault : StorageFault} {t : Journaled σ} :
    accept store.limits key value = .ok () → store.newness key s = .ok () →
      store.medium.persist (Utf8.encode key) (Utf8.encode value.encoding)
        (store.beforeWrite key s) = .error fault t →
          PutCourse store key value s (.error (.storage fault)) t.state
  | written {t : Journaled σ} :
    accept store.limits key value = .ok () → store.newness key s = .ok () →
      store.medium.persist (Utf8.encode key) (Utf8.encode value.encoding)
        (store.beforeWrite key s) = .ok () t →
          PutCourse store key value s (.ok ()) t.state

section Course

variable {α : Type} {s : Journaled (Session σ)}

theorem onMedium_of_ok {op : Op StorageFault σ α} {a : α} {r : Journaled σ}
    (h : op (underneath s) = .ok a r) :
    onMedium op s = .ok a ⟨{ s.state with medium := r.state }, r.events⟩ :=
  Op.within_eq_ok_iff.2 ⟨r, h, rfl⟩

theorem onMedium_of_error {op : Op StorageFault σ α} {fault : StorageFault} {r : Journaled σ}
    (h : op (underneath s) = .error fault r) :
    onMedium op s = .error fault ⟨{ s.state with medium := r.state }, r.events⟩ :=
  Op.within_eq_error_iff.2 ⟨r, h, rfl⟩

/-- What is done with an admitted value while its key is locked. -/
def enter (store : Store σ) (key : String) (value : Value) : Op PutFault (Session σ) Unit := do
  if store.policy = .reject then
    if ← (onMedium (store.medium.contains (Utf8.encode key))).mapError .storage then
      throw (.duplicate key)
  (onMedium (store.medium.persist (Utf8.encode key) (Utf8.encode value.encoding))).mapError .storage
  Op.report (.stored key value.encoding)

theorem putChecked_of_accept (h : accept store.limits key value = .ok ()) :
    store.putChecked key value s = withLock (Utf8.encode key) (store.enter key value) s := by
  obtain ⟨name, rfl, haccepted⟩ := vet_of_accept h
  have hvet : Op.ofExcept (vet store.limits name.text value) s = .ok (name, value.encoding) s :=
    Op.look_of_ok haccepted
  unfold putChecked
  rw [Op.bind_of_ok hvet]
  rfl

theorem putChecked_of_not_accept (h : accept store.limits key value = .error fault) :
    store.putChecked key value s = .error fault s := by
  have hvet : Op.ofExcept (vet store.limits key value) s = .error fault s :=
    Op.look_of_error (vet_of_not_accept h)
  exact Op.bind_of_error hvet

/-- The key is new: what is left to do is the write. -/
theorem enter_of_new (h : store.newness key (underneath s) = .ok ()) :
    store.enter key value s = (do
      (onMedium (store.medium.persist (Utf8.encode key) (Utf8.encode value.encoding))).mapError
        PutFault.storage
      Op.report (.stored key value.encoding))
      ⟨{ s.state with medium := (store.beforeWrite key (underneath s)).state },
        (store.beforeWrite key (underneath s)).events⟩ := by
  unfold newness at h
  unfold enter beforeWrite
  by_cases hreject : store.policy = .reject
  · simp only [hreject, ↓reduceIte] at h ⊢
    split at h
    · cases h
    · cases h
    · next hcontains =>
      have hmedium := onMedium_of_ok (Op.eq_ok_of_outcome hcontains)
      rw [Op.bind_of_ok (Op.mapError_eq_ok_iff.2 hmedium)]
      rfl
  · simp only [hreject, ↓reduceIte]
    rfl

theorem enter_of_not_new (h : store.newness key (underneath s) = .error fault) :
    store.enter key value s = .error fault
      ⟨{ s.state with medium := (store.beforeWrite key (underneath s)).state },
        (store.beforeWrite key (underneath s)).events⟩ := by
  unfold newness at h
  unfold enter beforeWrite
  by_cases hreject : store.policy = .reject
  · simp only [hreject, ↓reduceIte] at h ⊢
    split at h
    · next reason hcontains =>
      have hmedium := onMedium_of_error (Op.eq_error_of_outcome hcontains)
      rw [← Except.error.inj h]
      exact Op.bind_of_error (Op.mapError_of_error hmedium)
    · next hcontains =>
      have hmedium := onMedium_of_ok (Op.eq_ok_of_outcome hcontains)
      rw [← Except.error.inj h, Op.bind_of_ok (Op.mapError_eq_ok_iff.2 hmedium)]
      rfl
    · cases h
  · simp only [hreject, ↓reduceIte] at h
    cases h

theorem enter_course (h : accept store.limits key value = .ok ()) :
    store.PutCourse key value (underneath s) ((store.enter key value).outcome s)
      ((store.enter key value).after s).state.medium := by
  cases hnew : store.newness key (underneath s) with
  | error fault =>
    rw [Op.outcome_of_error (enter_of_not_new hnew), Op.after_of_error (enter_of_not_new hnew)]
    exact .notNew h hnew
  | ok _ =>
    cases hpersist : store.medium.persist (Utf8.encode key) (Utf8.encode value.encoding)
        (store.beforeWrite key (underneath s)) with
    | error fault t =>
      have hresult := (enter_of_new hnew).trans
        (Op.bind_of_error (Op.mapError_of_error (onMedium_of_error hpersist)))
      rw [Op.outcome_of_error hresult, Op.after_of_error hresult]
      exact .notWritten h hnew hpersist
    | ok _ t =>
      have hresult := (enter_of_new hnew).trans
        (Op.bind_of_ok (Op.mapError_eq_ok_iff.2 (onMedium_of_ok hpersist)))
      rw [Op.outcome_of_ok hresult, Op.after_of_ok hresult]
      exact .written h hnew hpersist

theorem putChecked_course (store : Store σ) (key : String) (value : Value)
    (s : Journaled (Session σ)) :
    store.PutCourse key value (underneath s) ((store.putChecked key value).outcome s)
      ((store.putChecked key value).after s).state.medium := by
  cases haccept : accept store.limits key value with
  | error fault =>
    have hresult := putChecked_of_not_accept (s := s) haccept
    rw [Op.outcome_of_error hresult, Op.after_of_error hresult]
    exact .refused haccept
  | ok _ =>
    have hlocked := putChecked_of_accept (s := s) haccept
    rw [Op.outcome, hlocked, ← Op.outcome, withLock_outcome, Op.after, hlocked, ← Op.after,
      medium_after_withLock]
    exact enter_course (s := ⟨⟨s.state.medium, (s.state.locks.acquire (Utf8.encode key)).2⟩, s.events⟩)
      haccept

/-- Storing a value ends in one of four ways. -/
theorem put_course (store : Store σ) (key : String) (value : Value) (s : Journaled (Session σ)) :
    store.PutCourse key value (underneath s) ((store.put key value).outcome s)
      ((store.put key value).after s).state.medium := by
  have hchecked := putChecked_course store key value s
  cases hop : store.putChecked key value s with
  | ok _ t =>
    have hput : store.put key value s = .ok () t := Op.bind_of_ok (Op.attempt_of_ok hop)
    rw [Op.outcome_of_ok hop, Op.after_of_ok hop] at hchecked
    rw [Op.outcome_of_ok hput, Op.after_of_ok hput]
    exact hchecked
  | error fault t =>
    have hput : store.put key value s = .error fault
        ⟨t.state, t.events ++ [.putRejected key fault.stage.name fault.reason]⟩ :=
      Op.bind_of_ok (Op.attempt_of_error hop)
    rw [Op.outcome_of_error hop, Op.after_of_error hop] at hchecked
    rw [Op.outcome_of_error hput, Op.after_of_error hput]
    exact hchecked

end Course

/-! ### The checks are made in their order -/

section Settled

variable {s : Journaled σ}

theorem settles_checkKey : Settles (store.Refuses key value s) [.characters, .keyLength]
    ((checkKey store.limits key).mapError .key) := by
  unfold checkKey
  cases hfirst : firstInvalid? 0 key.toList with
  | some found =>
    obtain ⟨c, place⟩ := found
    obtain ⟨before, after, heq, hbefore, hc, hplace⟩ := firstInvalid?_eq_some_iff.1 hfirst
    exact .of_refuses (.characters heq hbefore hc (hplace.trans (Nat.zero_add _)))
  | none =>
    have hcharacters : ∀ fault, ¬ store.Refuses key value s .characters fault := by
      intro fault hrefuses
      cases hrefuses with
      | characters heq _ hc _ => exact hc (Key.firstInvalid?_eq_none_iff.1 hfirst _ (by simp [heq]))
    dsimp only
    split
    · next hlength => exact .cons hcharacters (.of_refuses (.keyLength hlength))
    · next hlength =>
      have hpass : ∀ fault, ¬ store.Refuses key value s .keyLength fault := by
        intro fault hrefuses
        cases hrefuses with
        | keyLength hlong => exact hlength hlong
      exact .cons hcharacters (.of_passes hpass)

theorem settles_checkDomain : Settles (store.Refuses key value s) [.depth, .floats]
    (value.checkDomain.mapError .value) := by
  unfold Value.checkDomain
  split
  · next hdepth => exact .of_refuses (.depth hdepth)
  · next hdepth =>
    have hpass : ∀ fault, ¬ store.Refuses key value s .depth fault := by
      intro fault hrefuses
      cases hrefuses with
      | depth hdeep => exact hdepth hdeep
    cases hfloat : value.nonFinite? with
    | some x =>
      obtain ⟨before, after, heq, hbefore, hx⟩ := Value.nonFinite?_eq_some_iff.1 hfloat
      exact .cons hpass (.of_refuses (.floats heq hbefore hx))
    | none =>
      have hfloats : ∀ fault, ¬ store.Refuses key value s .floats fault := by
        intro fault hrefuses
        cases hrefuses with
        | floats heq hbefore hx =>
          cases hfloat.symm.trans (Value.nonFinite?_eq_some_iff.2 ⟨_, _, heq, hbefore, hx⟩)
      exact .cons hpass (.of_passes hfloats)

theorem settles_checkValueLength : Settles (store.Refuses key value s) [.valueLength]
    ((store.limits.checkValueLength value.length).mapError fun e => .tooLong e.actual e.max) := by
  unfold Limits.checkValueLength
  split
  · next hlength => exact .of_refuses (.valueLength hlength)
  · next hlength =>
    have hpass : ∀ fault, ¬ store.Refuses key value s .valueLength fault := by
      intro fault hrefuses
      cases hrefuses with
      | valueLength hlong => exact hlength hlong
    exact .of_passes hpass

theorem settles_accept : Settles (store.Refuses key value s) PutCheck.ofPair
    (accept store.limits key value) :=
  settles_checkKey.bind fun _ _ => settles_checkDomain.bind fun _ _ => settles_checkValueLength

theorem settles_newness : Settles (store.Refuses key value s) [.existence] (store.newness key s) := by
  unfold newness
  split
  · next hreject =>
    split
    · next fault hfault => exact .of_refuses (.unanswered hreject hfault)
    · next htrue => exact .of_refuses (.present hreject htrue)
    · next hfalse =>
      have hpass : ∀ fault, ¬ store.Refuses key value s .existence fault := by
        intro fault hrefuses
        cases hrefuses with
        | unanswered _ hfault => cases hfalse.symm.trans hfault
        | present _ htrue => cases hfalse.symm.trans htrue
      exact .of_passes hpass
  · next hreject =>
    have hpass : ∀ fault, ¬ store.Refuses key value s .existence fault := by
      intro fault hrefuses
      cases hrefuses with
      | unanswered hreject' _ => exact hreject hreject'
      | present hreject' _ => exact hreject hreject'
    exact .of_passes hpass

theorem settles_persist : Settles (store.Refuses key value s) [.write]
    (((store.medium.persist (Utf8.encode key) (Utf8.encode value.encoding)).outcome
      (store.beforeWrite key s)).mapError .storage) := by
  cases hpersist : (store.medium.persist (Utf8.encode key) (Utf8.encode value.encoding)).outcome
      (store.beforeWrite key s) with
  | error fault => exact .of_refuses (.write hpersist)
  | ok _ =>
    have hpass : ∀ fault, ¬ store.Refuses key value s .write fault := by
      intro fault hrefuses
      cases hrefuses with
      | write hfault => cases hpersist.symm.trans hfault
    exact .of_passes hpass

/-- What comes of storing a value is what comes of its steps. -/
theorem PutCourse.result_eq {result : Except PutFault Unit} {medium : σ}
    (h : store.PutCourse key value s result medium) :
    result =
      (accept store.limits key value >>= fun _ => store.newness key s >>= fun _ =>
        ((store.medium.persist (Utf8.encode key) (Utf8.encode value.encoding)).outcome
          (store.beforeWrite key s)).mapError .storage) := by
  cases h with
  | refused haccept => rw [haccept, Except.error_bind]
  | notNew haccept hnew => rw [haccept, hnew, Except.ok_bind, Except.error_bind]
  | notWritten haccept hnew hpersist =>
    rw [haccept, hnew, Except.ok_bind, Except.ok_bind, Op.outcome_of_error hpersist,
      Except.mapError_error]
  | written haccept hnew hpersist =>
    rw [haccept, hnew, Except.ok_bind, Except.ok_bind, Op.outcome_of_ok hpersist, Except.mapError_ok]

/-- Storing a value ends with the fault of the first check that refuses, or well if none does. -/
theorem settles_put (store : Store σ) (key : String) (value : Value) (s : Journaled (Session σ)) :
    Settles (store.Refuses key value (underneath s)) PutCheck.all
      ((store.put key value).outcome s) := by
  rw [(store.put_course key value s).result_eq]
  exact settles_accept.bind fun _ _ => settles_newness.bind fun _ _ => settles_persist

end Settled

end Store

end TypedStore
