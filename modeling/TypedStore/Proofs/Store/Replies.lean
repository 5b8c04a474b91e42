/-
  TypedStore/Proofs/Store/Replies.lean
  ====================================
  **What stores reply on media that look the same to them.**

  If the operations of a medium do the same on states that stand in a relation, then so do those of a
  store on it: two stores alike, of which the media stand in the relation, give the same replies, and
  afterwards the media stand in it again (`Task.uniform`). Some failures of the medium may excuse the
  first store from this; it passes them on, so its reply tells of them (`Reply.FailsBy`).
-/
import TypedStore.Proofs.Mirrors
import TypedStore.Proofs.Store.Entries
import TypedStore.Proofs.Store.Tasks

namespace TypedStore

/-- The operations of a medium do the same on states that stand in the relation. -/
structure Medium.Uniform {σ : Type} (medium : Medium σ) (p : StorageFault → Prop)
    (r : σ → σ → Prop) : Prop where
  persist : ∀ key value, (medium.persist key value).Uniform p r
  retrieve : ∀ key, (medium.retrieve key).Uniform p r
  remove : ∀ key, (medium.remove key).Uniform p r
  keys : medium.keys.Uniform p r
  contains : ∀ key, (medium.contains key).Uniform p r
  clear : medium.clear.Uniform p r

/-- So do the operations on earlier generations. -/
structure Snapshots.Uniform {σ : Type} (snapshots : Snapshots σ) (p : StorageFault → Prop)
    (r : σ → σ → Prop) : Prop where
  keep : ∀ x y, r x y → snapshots.keep x = snapshots.keep y
  count : ∀ x y, r x y → snapshots.count x = snapshots.count y
  restore : ∀ generation, (snapshots.restore generation).Uniform p r
  dataFile : ∀ x y, r x y → snapshots.dataFile x = snapshots.dataFile y
  checksumFile : ∀ x y, r x y → snapshots.checksumFile x = snapshots.checksumFile y

namespace Store

variable {σ ε α : Type}

structure Uniform (store : Store σ) (p : StorageFault → Prop) (r : σ → σ → Prop) : Prop where
  medium : store.medium.Uniform p r
  snapshots : ∀ snapshots, store.snapshots = some snapshots → snapshots.Uniform p r

/-- The media of two sessions stand in a relation, and their locks are the same. -/
structure Alongside (r : σ → σ → Prop) (s t : Session σ) : Prop where
  medium : r s.medium t.medium
  locks : s.locks = t.locks

/-- The faults of bringing a generation back that come from the medium. -/
def restoreMayFail (mayFail : StorageFault → Prop) : SnapshotFault → Prop
  | .storage fault => mayFail fault
  | _ => False

/-! ### Replies -/

/-- What a store replies. -/
inductive Reply where
  | put (result : Except PutFault Unit)
  | value (result : Except GetFault Value)
  | flag (result : Except StorageFault Bool)
  | names (result : Except StorageFault (List String))
  | removed (result : Except RemoveFault Unit)
  | count (result : Except StorageFault Nat)
  | restored (result : Except SnapshotFault Unit)
  | number (n : Nat)
  | path (result : Except SnapshotFault Path)
  | text (text : String)

/-- The reply tells of a failure of the medium that is such a one. -/
def Reply.FailsBy (p : StorageFault → Prop) : Reply → Prop
  | .put (.error fault) => putMayFail p fault
  | .value (.error fault) => getMayFail p fault
  | .flag (.error fault) | .names (.error fault) | .count (.error fault) => p fault
  | .removed (.error fault) => removeMayFail p fault
  | .restored (.error fault) => restoreMayFail p fault
  | _ => False

section Decidable

variable (p : StorageFault → Prop) [DecidablePred p]

instance : DecidablePred (putMayFail p)
  | .storage fault => inferInstanceAs (Decidable (p fault))
  | .key _ | .value _ | .tooLong .. | .duplicate _ => isFalse id

instance : DecidablePred (getMayFail p)
  | .storage fault => inferInstanceAs (Decidable (p fault))
  | .notFound _ | .corrupt .. => isFalse id

instance : DecidablePred (removeMayFail p)
  | .storage fault => inferInstanceAs (Decidable (p fault))
  | .notFound _ => isFalse id

instance : DecidablePred (restoreMayFail p)
  | .storage fault => inferInstanceAs (Decidable (p fault))
  | .invalidId .. | .noFile _ => isFalse id

instance : DecidablePred (Reply.FailsBy p)
  | .put (.error fault) => inferInstanceAs (Decidable (putMayFail p fault))
  | .value (.error fault) => inferInstanceAs (Decidable (getMayFail p fault))
  | .flag (.error fault) | .names (.error fault) | .count (.error fault) =>
    inferInstanceAs (Decidable (p fault))
  | .removed (.error fault) => inferInstanceAs (Decidable (removeMayFail p fault))
  | .restored (.error fault) => inferInstanceAs (Decidable (restoreMayFail p fault))
  | .put (.ok _) | .value (.ok _) | .flag (.ok _) | .names (.ok _) | .count (.ok _)
  | .removed (.ok _) | .restored (.ok _) | .number _ | .path _ | .text _ => isFalse id

end Decidable

/-- What a store replies when it is asked to do something. -/
def Task.reply (store : Store σ) (s : Journaled (Session σ)) : Task → Reply
  | .put key value => .put ((store.put key value).outcome s)
  | .get key => .value ((store.get key).outcome s)
  | .getOrDefault key => .value ((store.getOrDefault key).outcome s)
  | .contains key => .flag ((store.contains key).outcome s)
  | .isDefault key => .flag ((store.isDefault key).outcome s)
  | .keys => .names (store.keys.outcome s)
  | .remove key => .removed ((store.remove key).outcome s)
  | .resetKey key => .removed ((store.resetKey key).outcome s)
  | .resetAll => .count (store.resetAll.outcome s)
  | .restoreSnapshot id => .restored ((store.restoreSnapshot id).outcome s)

/-- What a store may be asked about itself, without locking anything. -/
inductive Query where
  | getDefault (key : String)
  | snapshotCount
  | snapshotMaxCount
  | dataFile (id : Nat)
  | checksumFile (id : Nat)
  | summary

def Query.reply (store : Store σ) (medium : σ) : Query → Reply
  | .getDefault key => .value (store.getDefault key)
  | .snapshotCount => .number (store.snapshotCount medium)
  | .snapshotMaxCount => .number (store.snapshotMaxCount medium)
  | .dataFile id => .path (store.dataFile medium id)
  | .checksumFile id => .path (store.checksumFile medium id)
  | .summary => .text store.summary

variable {p : StorageFault → Prop} {r : σ → σ → Prop} {store : Store σ}

/-! ### Access to the medium -/

theorem onMedium_uniform {op : Op StorageFault σ α} (h : op.Uniform p r) :
    (onMedium op).Uniform p (Alongside r) :=
  h.within (fun _ _ h => h.medium) fun _ _ h _ _ hnext => ⟨hnext, h.locks⟩

/-- The locks after an operation under a lock: those that it leaves, without that one. -/
theorem locks_after_withLock (key : Bytes) (op : Op ε (Session σ) α) (s : Journaled (Session σ)) :
    ((withLock key op).after s).state.locks =
      (op.after ⟨⟨s.state.medium, (s.state.locks.acquire key).2⟩, s.events⟩).state.locks.finish key
        (s.state.locks.acquire key).1 := by
  unfold Op.after withLock
  dsimp only
  cases op ⟨⟨s.state.medium, (s.state.locks.acquire key).2⟩, s.events⟩ <;> rfl

theorem withLock_uniform {q : ε → Prop} {op : Op ε (Session σ) α} (key : Bytes)
    (h : op.Uniform q (Alongside r)) : (withLock key op).Uniform q (Alongside r) := by
  rintro s t ⟨hmedium, hlocks⟩
  rw [withLock_outcome, withLock_outcome]
  have hlocked := h ⟨⟨s.state.medium, (s.state.locks.acquire key).2⟩, s.events⟩
    ⟨⟨t.state.medium, (t.state.locks.acquire key).2⟩, t.events⟩ ⟨hmedium, by rw [hlocks]⟩
  refine hlocked.imp id fun ⟨hsame, hafter⟩ => ⟨hsame, ?_, ?_⟩
  · rw [medium_after_withLock, medium_after_withLock]
    exact hafter.medium
  · rw [locks_after_withLock, locks_after_withLock, hafter.locks, hlocks]

/-! ### Tasks -/

section Tasks

variable (h : store.Uniform p r)
include h

theorem snapshotCount_congr {x y : σ} (hrel : r x y) :
    store.snapshotCount x = store.snapshotCount y := by
  unfold snapshotCount
  cases hsnapshots : store.snapshots with
  | none => rfl
  | some snapshots => exact (h.snapshots snapshots hsnapshots).count x y hrel

theorem putChecked_uniform (key : String) (value : Value) :
    (store.putChecked key value).Uniform (putMayFail p) (Alongside r) := by
  apply (Op.uniform_ofExcept _).bind
  rintro ⟨key, encoding⟩
  apply withLock_uniform
  have hstorage : ∀ {α : Type} {op : Op StorageFault σ α}, op.Uniform p r →
      ((onMedium op).mapError PutFault.storage).Uniform (putMayFail p) (Alongside r) :=
    fun hop => (onMedium_uniform hop).mapError fun _ => id
  have hstored := (hstorage (h.medium.persist key.bytes (Utf8.encode encoding))).bind fun _ =>
    Op.uniform_report (.stored key.text encoding)
  dsimp only
  split
  · apply (hstorage (h.medium.contains key.bytes)).bind
    intro present
    split
    · exact (Op.uniform_throw _).bind fun _ => hstored
    · exact hstored
  · exact hstored

theorem put_uniform (key : String) (value : Value) :
    (store.put key value).Uniform (putMayFail p) (Alongside r) := by
  apply (putChecked_uniform h key value).attempt_bind
  · rintro (fault | _)
    · exact (Op.uniform_report _).bind fun _ => Op.uniform_throw fault
    · exact Op.uniform_pure ()
  · intro fault hfault
    exact Op.fails_report_throw _ hfault

theorem fetch_uniform (key : String) : (store.fetch key).Uniform p (Alongside r) := by
  unfold fetch
  split
  · exact withLock_uniform _ (onMedium_uniform (h.medium.retrieve _))
  · exact Op.uniform_pure none

theorem get_uniform (key : String) : (store.get key).Uniform (getMayFail p) (Alongside r) := by
  have hfetch : ((store.fetch key).mapError GetFault.storage).Uniform (getMayFail p) (Alongside r) :=
    (fetch_uniform h key).mapError fun _ => id
  apply hfetch.bind
  rintro (_ | bytes)
  · exact (Op.uniform_report _).bind fun _ => Op.uniform_throw _
  · dsimp only
    split
    · exact (Op.uniform_report _).bind fun _ => Op.uniform_throw _
    · exact (Op.uniform_report _).bind fun _ => Op.uniform_pure _

theorem getOrDefault_uniform (key : String) :
    (store.getOrDefault key).Uniform (getMayFail p) (Alongside r) := by
  apply (get_uniform h key).attempt_bind
  · intro result
    split
    · exact Op.uniform_pure _
    · exact Op.uniform_ofExcept _
    · exact Op.uniform_throw _
  · intro fault hfault
    cases fault with
    | notFound key => cases hfault
    | corrupt key reason => cases hfault
    | storage fault => exact Op.fails_throw hfault

theorem contains_uniform (key : String) : (store.contains key).Uniform p (Alongside r) := by
  unfold contains
  split
  · exact onMedium_uniform (h.medium.contains _)
  · exact Op.uniform_pure false

theorem isDefault_uniform (key : String) : (store.isDefault key).Uniform p (Alongside r) := by
  unfold isDefault
  split
  · exact (contains_uniform h key).bind fun _ => Op.uniform_pure _
  · exact Op.uniform_pure false

theorem keys_uniform : store.keys.Uniform p (Alongside r) := by
  apply (onMedium_uniform h.medium.keys).bind
  intro listed
  exact (Op.uniform_ofExcept _).bind fun _ => Op.uniform_pure _

/-- Removing a key from the medium while it is locked. -/
theorem lockedRemove_uniform (key : Bytes) :
    ((lockedOnMedium key (store.medium.remove key)).mapError RemoveFault.storage).Uniform
      (removeMayFail p) (Alongside r) :=
  (withLock_uniform key (onMedium_uniform (h.medium.remove key))).mapError fun _ => id

theorem remove_uniform (key : String) :
    (store.remove key).Uniform (removeMayFail p) (Alongside r) := by
  have hend : ∀ present : Bool, Op.Uniform (removeMayFail p) (Alongside r)
      (if present then Op.report (.removed key) else throw (.notFound key) :
        Op RemoveFault (Session σ) Unit) := by
    intro present
    split
    · exact Op.uniform_report _
    · exact Op.uniform_throw _
  unfold remove
  split
  · exact (lockedRemove_uniform h _).bind hend
  · exact (Op.uniform_pure false).bind hend

theorem resetKey_uniform (key : String) :
    (store.resetKey key).Uniform (removeMayFail p) (Alongside r) := by
  unfold resetKey
  split
  · exact (lockedRemove_uniform h _).bind fun _ => Op.uniform_report _
  · exact Op.uniform_throw _

theorem resetAll_uniform : store.resetAll.Uniform p (Alongside r) := by
  apply (onMedium_uniform h.medium.clear).bind
  intro count
  exact (Op.uniform_report _).bind fun _ => Op.uniform_pure count

theorem restoreSnapshot_uniform (generation : Nat) :
    (store.restoreSnapshot generation).Uniform (restoreMayFail p) (Alongside r) := by
  apply Op.Mirrors.state_bind
  intro s t hrel
  rw [snapshotCount_congr h hrel.medium]
  have hrejected : Op.Uniform (restoreMayFail p) (Alongside r)
      (Op.report (.restoreRejected generation (store.snapshotCount t.medium)) >>= fun _ =>
        throw (.invalidId generation (store.snapshotCount t.medium)) :
          Op SnapshotFault (Session σ) Unit) :=
    (Op.uniform_report _).bind fun _ => Op.uniform_throw _
  cases hsnapshots : store.snapshots with
  | none => exact hrejected
  | some snapshots =>
    dsimp only
    split
    · have hrestore := (h.snapshots snapshots hsnapshots).restore generation
      exact (onMedium_uniform hrestore).mapError fun _ => id
    · exact hrejected

/-- The reply to a task is the same for both stores, and what is left of the media stands in the
    relation again; unless the first store tells of a failure that excuses it. -/
theorem Task.uniform (task : Task) {s t : Journaled (Session σ)}
    (hrel : Alongside r s.state t.state) :
    (task.reply store s).FailsBy p ∨
      task.reply store s = task.reply store t ∧
        Alongside r (task.after store s).state (task.after store t).state := by
  have hreply : ∀ {ε α : Type} {q : ε → Prop} {op : Op ε (Session σ) α} (wrap : Except ε α → Reply),
      op.Uniform q (Alongside r) → (∀ e, q e → (wrap (.error e)).FailsBy p) →
        (wrap (op.outcome s)).FailsBy p ∨ wrap (op.outcome s) = wrap (op.outcome t) ∧
          Alongside r (op.after s).state (op.after t).state := by
    intro ε α q op wrap hop hfails
    rcases hop s t hrel with ⟨e, he, hq⟩ | ⟨hsame, hafter⟩
    · rw [he]
      exact .inl (hfails e hq)
    · exact .inr ⟨congrArg wrap hsame, hafter⟩
  cases task with
  | put key value => exact hreply .put (put_uniform h key value) fun _ => id
  | get key => exact hreply .value (get_uniform h key) fun _ => id
  | getOrDefault key => exact hreply .value (getOrDefault_uniform h key) fun _ => id
  | contains key => exact hreply .flag (contains_uniform h key) fun _ => id
  | isDefault key => exact hreply .flag (isDefault_uniform h key) fun _ => id
  | keys => exact hreply .names (keys_uniform h) fun _ => id
  | remove key => exact hreply .removed (remove_uniform h key) fun _ => id
  | resetKey key => exact hreply .removed (resetKey_uniform h key) fun _ => id
  | resetAll => exact hreply .count (resetAll_uniform h) fun _ => id
  | restoreSnapshot generation =>
    exact hreply .restored (restoreSnapshot_uniform h generation) fun _ => id

theorem Query.uniform (query : Query) {x y : σ} (hrel : r x y) :
    query.reply store x = query.reply store y := by
  cases query with
  | getDefault key => rfl
  | snapshotCount => exact congrArg Reply.number (snapshotCount_congr h hrel)
  | snapshotMaxCount =>
    refine congrArg Reply.number ?_
    unfold Store.snapshotMaxCount
    cases hsnapshots : store.snapshots with
    | none => rfl
    | some snapshots => exact (h.snapshots snapshots hsnapshots).keep x y hrel
  | dataFile generation =>
    refine congrArg Reply.path ?_
    unfold Store.dataFile
    cases hsnapshots : store.snapshots with
    | none => rfl
    | some snapshots =>
      rw [Option.bind_some, Option.bind_some,
        (h.snapshots snapshots hsnapshots).dataFile x y hrel]
  | checksumFile generation =>
    refine congrArg Reply.path ?_
    unfold Store.checksumFile
    cases hsnapshots : store.snapshots with
    | none => rfl
    | some snapshots =>
      rw [Option.bind_some, Option.bind_some,
        (h.snapshots snapshots hsnapshots).checksumFile x y hrel]
  | summary => rfl

end Tasks

end Store

end TypedStore
