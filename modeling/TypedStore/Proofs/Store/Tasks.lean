/-
  TypedStore/Proofs/Store/Tasks.lean
  ==================================
  **What the operations of a store do to its medium.**

  Every operation of a store, be it successful or not, works on the medium by the operations of the
  medium alone, and gives values only to names that consist of characters of keys. So what these leave
  of the medium, the operations of the store leave of it too (`Task.leaves`), and that keys consist of
  such characters holds of whatever stores have written, under whatever limits.
-/
import TypedStore.Proofs.Operations
import TypedStore.Store.Defaults
import TypedStore.Store.Generations

namespace TypedStore

/-- A text of characters that may stand in keys, however long it is. -/
def IsKeyText (name : String) : Prop := ∀ c ∈ name.toList, isKeyChar c

theorem isKeyText_of_checkKey {limits : Limits} {name : String} (h : checkKey limits name = .ok ()) :
    IsKeyText name := by
  unfold checkKey at h
  split at h
  · cases h
  · next hnone => exact Key.firstInvalid?_eq_none_iff.1 hnone

theorem isAdmissible_iff_checkKey {limits : Limits} {name : String} :
    isAdmissible limits name ↔ checkKey limits name = .ok () := by
  rw [isAdmissible]
  cases checkKey limits name <;> simp [Except.toBool]

/-- What could be a key is a text of such characters that is not too long. -/
theorem isAdmissible_iff {limits : Limits} {name : String} :
    isAdmissible limits name ↔ IsKeyText name ∧ (Utf8.encode name).length ≤ limits.maxKeyBytes := by
  have htext : firstInvalid? 0 name.toList = none ↔ IsKeyText name := Key.firstInvalid?_eq_none_iff
  rw [isAdmissible, checkKey, ← htext]
  cases firstInvalid? 0 name.toList with
  | some invalid => simp [Except.toBool]
  | none =>
    by_cases hlong : limits.maxKeyBytes < (Utf8.encode name).length
    · simp [hlong, Except.toBool]
    · simp [hlong, Except.toBool, Nat.not_lt.1 hlong]

namespace Store

variable {σ ε α : Type}

/-! ### Tasks -/

/-- What a store may be asked to do. -/
inductive Task where
  | put (key : String) (value : Value)
  | get (key : String)
  | getOrDefault (key : String)
  | contains (key : String)
  | isDefault (key : String)
  | keys
  | remove (key : String)
  | resetKey (key : String)
  | resetAll
  | restoreSnapshot (id : Nat)

/-- The state after a task, be it successful or not. -/
def Task.after (store : Store σ) (s : Journaled (Session σ)) : Task → Journaled (Session σ)
  | .put key value => (store.put key value).after s
  | .get key => (store.get key).after s
  | .getOrDefault key => (store.getOrDefault key).after s
  | .contains key => (store.contains key).after s
  | .isDefault key => (store.isDefault key).after s
  | .keys => store.keys.after s
  | .remove key => (store.remove key).after s
  | .resetKey key => (store.resetKey key).after s
  | .resetAll => store.resetAll.after s
  | .restoreSnapshot id => (store.restoreSnapshot id).after s

/-- The operations on the medium that a store makes use of all leave it in such a relation to what it
    was. -/
structure Respects (store : Store σ) (r : σ → σ → Prop) : Prop where
  refl : ∀ x, r x x
  trans : ∀ {x y z}, r x y → r y z → r x z
  persist : ∀ name value, IsKeyText name → (store.medium.persist (Utf8.encode name) value).Leaves r
  retrieve : ∀ key, (store.medium.retrieve key).Leaves r
  remove : ∀ key, (store.medium.remove key).Leaves r
  keys : store.medium.keys.Leaves r
  contains : ∀ key, (store.medium.contains key).Leaves r
  clear : store.medium.clear.Leaves r
  restore : ∀ snapshots, store.snapshots = some snapshots → ∀ id, (snapshots.restore id).Leaves r

/-- The media of two sessions stand in a relation. -/
def Follows (r : σ → σ → Prop) (s t : Session σ) : Prop := r s.medium t.medium

variable {r : σ → σ → Prop} {store : Store σ}

theorem onMedium_leaves {op : Op StorageFault σ α} (h : op.Leaves r) :
    (onMedium op).Leaves (Follows r) :=
  h.within fun _ _ hmedium => hmedium

/-- Locking does not change what comes of an operation. -/
theorem withLock_outcome (key : Bytes) (op : Op ε (Session σ) α) (s : Journaled (Session σ)) :
    (withLock key op).outcome s =
      op.outcome ⟨⟨s.state.medium, (s.state.locks.acquire key).2⟩, s.events⟩ := by
  unfold Op.outcome withLock
  dsimp only
  cases op ⟨⟨s.state.medium, (s.state.locks.acquire key).2⟩, s.events⟩ <;> rfl

/-- Nor does it change what becomes of the medium. -/
theorem medium_after_withLock (key : Bytes) (op : Op ε (Session σ) α) (s : Journaled (Session σ)) :
    ((withLock key op).after s).state.medium =
      (op.after ⟨⟨s.state.medium, (s.state.locks.acquire key).2⟩, s.events⟩).state.medium := by
  unfold Op.after withLock
  dsimp only
  cases op ⟨⟨s.state.medium, (s.state.locks.acquire key).2⟩, s.events⟩ <;> rfl

theorem withLock_leaves {op : Op ε (Session σ) α} (key : Bytes) (h : op.Leaves (Follows r)) :
    (withLock key op).Leaves (Follows r) := by
  intro s
  rw [Follows, medium_after_withLock]
  exact h ⟨⟨s.state.medium, (s.state.locks.acquire key).2⟩, s.events⟩

section Tasks

variable (h : store.Respects r)
include h

theorem Respects.follows_refl (s : Session σ) : Follows r s s := h.refl s.medium

theorem Respects.follows_trans {s t u : Session σ} (hst : Follows r s t) (htu : Follows r t u) :
    Follows r s u := h.trans hst htu

theorem putChecked_leaves (key : String) (value : Value) :
    (store.putChecked key value).Leaves (Follows r) := by
  apply (Op.leaves_look h.follows_refl _).bind h.follows_trans
  rintro ⟨key, encoding⟩
  apply withLock_leaves
  have hpersist : ((onMedium (store.medium.persist key.bytes (Utf8.encode encoding))).mapError
      PutFault.storage).Leaves (Follows r) :=
    (onMedium_leaves (h.persist key.text _ (isKeyText_of_checkKey key.isKey))).mapError
  have hstored := hpersist.bind h.follows_trans fun _ =>
    Op.leaves_report h.follows_refl (.stored key.text encoding)
  by_cases hreject : store.policy = .reject
  · simp only [hreject, ↓reduceIte]
    apply (onMedium_leaves (h.contains _)).mapError.bind h.follows_trans
    intro present
    cases present with
    | true =>
      simp only [↓reduceIte]
      intro s
      rw [Op.after_of_error (Op.bind_of_error (Op.throw_apply _ s))]
      exact h.follows_refl s.state
    | false =>
      simp only [Bool.false_eq_true, ↓reduceIte]
      exact hstored
  · simp only [hreject, ↓reduceIte]
    exact hstored

theorem put_leaves (key : String) (value : Value) : (store.put key value).Leaves (Follows r) := by
  apply (putChecked_leaves h key value).attempt_bind h.follows_trans
  rintro (fault | _)
  · apply (Op.leaves_report h.follows_refl _).bind h.follows_trans
    intro _
    exact Op.leaves_throw h.follows_refl fault
  · exact Op.leaves_pure h.follows_refl ()

theorem fetch_leaves (key : String) : (store.fetch key).Leaves (Follows r) := by
  unfold fetch
  split
  · exact withLock_leaves _ (onMedium_leaves (h.retrieve _))
  · exact Op.leaves_pure h.follows_refl none

theorem get_leaves (key : String) : (store.get key).Leaves (Follows r) := by
  apply (fetch_leaves h key).mapError.bind h.follows_trans
  rintro (_ | bytes)
  · apply (Op.leaves_report h.follows_refl _).bind h.follows_trans
    intro _
    exact Op.leaves_throw h.follows_refl _
  · dsimp only
    split
    · apply (Op.leaves_report h.follows_refl _).bind h.follows_trans
      intro _
      exact Op.leaves_throw h.follows_refl _
    · apply (Op.leaves_report h.follows_refl _).bind h.follows_trans
      intro _
      exact Op.leaves_pure h.follows_refl _

theorem getOrDefault_leaves (key : String) : (store.getOrDefault key).Leaves (Follows r) := by
  apply (get_leaves h key).attempt_bind h.follows_trans
  intro result
  split
  · exact Op.leaves_pure h.follows_refl _
  · exact Op.leaves_look h.follows_refl _
  · exact Op.leaves_throw h.follows_refl _

theorem contains_leaves (key : String) : (store.contains key).Leaves (Follows r) := by
  unfold contains
  split
  · exact onMedium_leaves (h.contains _)
  · exact Op.leaves_pure h.follows_refl false

theorem isDefault_leaves (key : String) : (store.isDefault key).Leaves (Follows r) := by
  unfold isDefault
  split
  · apply (contains_leaves h key).bind h.follows_trans
    intro present
    exact Op.leaves_pure h.follows_refl _
  · exact Op.leaves_pure h.follows_refl false

theorem keys_leaves : store.keys.Leaves (Follows r) := by
  apply (onMedium_leaves h.keys).bind h.follows_trans
  intro listed
  apply (Op.leaves_look h.follows_refl _).bind h.follows_trans
  intro texts
  exact Op.leaves_pure h.follows_refl _

/-- Removing a key from the medium while it is locked. -/
theorem lockedRemove_leaves (key : Bytes) :
    ((lockedOnMedium key (store.medium.remove key)).mapError RemoveFault.storage).Leaves
      (Follows r) :=
  (withLock_leaves key (onMedium_leaves (h.remove key))).mapError

theorem remove_leaves (key : String) : (store.remove key).Leaves (Follows r) := by
  have hend : ∀ present : Bool, Op.Leaves (Follows r)
      (if present then Op.report (.removed key) else throw (.notFound key) :
        Op RemoveFault (Session σ) Unit) := by
    intro present
    split
    · exact Op.leaves_report h.follows_refl _
    · exact Op.leaves_throw h.follows_refl _
  unfold remove
  split
  · exact (lockedRemove_leaves h _).bind h.follows_trans hend
  · exact (Op.leaves_pure h.follows_refl false).bind h.follows_trans hend

theorem resetKey_leaves (key : String) : (store.resetKey key).Leaves (Follows r) := by
  unfold resetKey
  split
  · apply (lockedRemove_leaves h _).bind h.follows_trans
    intro present
    exact Op.leaves_report h.follows_refl _
  · exact Op.leaves_throw h.follows_refl _

theorem resetAll_leaves : store.resetAll.Leaves (Follows r) := by
  apply (onMedium_leaves h.clear).bind h.follows_trans
  intro count
  apply (Op.leaves_report h.follows_refl _).bind h.follows_trans
  intro _
  exact Op.leaves_pure h.follows_refl count

theorem restoreSnapshot_leaves (id : Nat) : (store.restoreSnapshot id).Leaves (Follows r) := by
  have hrejected : ∀ count, Op.Leaves (Follows r)
      (Op.report (.restoreRejected id count) >>= fun _ => throw (.invalidId id count) :
        Op SnapshotFault (Session σ) Unit) := by
    intro count
    apply (Op.leaves_report h.follows_refl _).bind h.follows_trans
    intro _
    exact Op.leaves_throw h.follows_refl _
  have hstate : (Op.state : Op SnapshotFault (Session σ) (Session σ)).Leaves (Follows r) :=
    fun s => h.follows_refl s.state
  apply hstate.bind h.follows_trans
  intro s
  cases hsnapshots : store.snapshots with
  | none => exact hrejected _
  | some snapshots =>
    dsimp only
    split
    · exact (onMedium_leaves (h.restore snapshots hsnapshots id)).mapError
    · exact hrejected _

/-- Whatever a store is asked to do, and whatever comes of it, it leaves its medium in a relation in
    which the operations of the medium leave it. -/
theorem Task.leaves (task : Task) (s : Journaled (Session σ)) :
    r s.state.medium (task.after store s).state.medium := by
  cases task with
  | put key value => exact put_leaves h key value s
  | get key => exact get_leaves h key s
  | getOrDefault key => exact getOrDefault_leaves h key s
  | contains key => exact contains_leaves h key s
  | isDefault key => exact isDefault_leaves h key s
  | keys => exact keys_leaves h s
  | remove key => exact remove_leaves h key s
  | resetKey key => exact resetKey_leaves h key s
  | resetAll => exact resetAll_leaves h s
  | restoreSnapshot id => exact restoreSnapshot_leaves h id s

end Tasks

end Store

end TypedStore
