/-
  TypedStore/Proofs/Locking.lean
  ==============================
  **Live handles for one key are handles to one mutex.**

  A table of mutexes counts the live handles to each mutex, but not for which keys they were obtained.
  So the handles are kept here beside the table (`LockMoment`): those that were obtained to be kept, and
  those of the keys that are locked at the moment. Uses of the table are nested, since things are done
  while a key is locked; a run passes through the moments inside as well as through those between
  (`momentsAll`).

  What carries the proof is that the table and the handles stay in step (`KeyLocks.Tracks`): the count is
  that of the handles, no number has been given to two mutexes of the table, and what is in the table for
  the key of a live handle is the mutex of that handle. A mutex leaves the table only when the count says
  that no handle is live, and the count is right; so a handle never sees its mutex replaced by another.
-/
import Mathlib.Data.List.Basic
import TypedStore.Lock
import TypedStore.Proofs.SortedMap

namespace TypedStore

/-- A live handle to a mutex, and the key for which it was obtained. -/
structure LockHandle where
  key : Bytes
  mutex : Nat
deriving DecidableEq, Repr

namespace KeyLocks

/-- The table and the live handles are in step. -/
structure Tracks (locks : KeyLocks) (handles : List LockHandle) : Prop where
  counted : locks.live.Perm (handles.map (·.mutex))
  used {key : Bytes} {mutex : Nat} : locks.table.get? key = some mutex → mutex < locks.next
  apart {key other : Bytes} {mutex : Nat} : locks.table.get? key = some mutex →
    locks.table.get? other = some mutex → key = other
  held {handle : LockHandle} : handle ∈ handles →
    locks.table.get? handle.key = some handle.mutex

variable {locks : KeyLocks} {handles others : List LockHandle} {key other : Bytes}

theorem tracks_empty : Tracks empty [] where
  counted := .nil
  used h := by cases h
  apart h := by cases h
  held h := by cases h

theorem Tracks.perm (h : locks.Tracks handles) (hperm : handles.Perm others) :
    locks.Tracks others where
  counted := h.counted.trans (hperm.map _)
  used := h.used
  apart := h.apart
  held hmem := h.held (hperm.mem_iff.2 hmem)

/-- Two live handles are handles to the same mutex just if they are for the same key. -/
theorem Tracks.mutex_eq_iff (h : locks.Tracks handles) {a b : LockHandle} (ha : a ∈ handles)
    (hb : b ∈ handles) : a.mutex = b.mutex ↔ a.key = b.key := by
  have hheld := h.held ha
  constructor
  · intro heq
    exact h.apart (heq ▸ hheld) (h.held hb)
  · intro heq
    rw [heq, h.held hb] at hheld
    exact (Option.some.inj hheld).symm

/-! ### Obtaining a handle -/

theorem get?_acquire (locks : KeyLocks) (key other : Bytes) :
    (locks.acquire key).2.table.get? other =
      if other = key then some (locks.acquire key).1 else locks.table.get? other := by
  unfold acquire
  split
  · next mutex hmutex =>
    by_cases heq : other = key
    · simp [heq, hmutex]
    · simp [heq]
  · simp [SortedMap.get?_insert]

theorem live_acquire (locks : KeyLocks) (key : Bytes) :
    (locks.acquire key).2.live = (locks.acquire key).1 :: locks.live := by
  unfold acquire
  split <;> rfl

/-- The mutex is that of the table, or a new one. -/
theorem acquire_cases (locks : KeyLocks) (key : Bytes) :
    locks.table.get? key = some (locks.acquire key).1 ∧ (locks.acquire key).2.next = locks.next ∨
      locks.table.get? key = none ∧ (locks.acquire key).1 = locks.next ∧
        (locks.acquire key).2.next = locks.next + 1 := by
  unfold acquire
  split
  · next mutex hmutex => exact .inl ⟨hmutex, rfl⟩
  · next hnone => exact .inr ⟨hnone, rfl, rfl⟩

theorem Tracks.acquire (h : locks.Tracks handles) (key : Bytes) :
    (locks.acquire key).2.Tracks (⟨key, (locks.acquire key).1⟩ :: handles) where
  counted := by
    rw [live_acquire]
    exact h.counted.cons _
  used {j mutex} hj := by
    rw [get?_acquire] at hj
    rcases locks.acquire_cases key with ⟨hkey, hnext⟩ | ⟨hkey, hnew, hnext⟩
    · rw [hnext]
      split at hj
      · exact h.used (hkey.trans hj)
      · exact h.used hj
    · rw [hnext]
      split at hj
      · cases hj
        omega
      · exact Nat.lt_succ_of_lt (h.used hj)
  apart {j k mutex} hj hk := by
    rw [get?_acquire] at hj hk
    -- A mutex that was in the table is not the new one, for that is the first number not used yet.
    have hold : ∀ i, i ≠ key → locks.table.get? i ≠ some (locks.acquire key).1 := by
      intro i hi hget
      rcases locks.acquire_cases key with ⟨hkey, -⟩ | ⟨-, hnew, -⟩
      · exact hi (h.apart hget hkey)
      · exact absurd (h.used hget) (by omega)
    by_cases hjkey : j = key <;> by_cases hkkey : k = key
    · rw [hjkey, hkkey]
    · rw [if_pos hjkey] at hj
      rw [if_neg hkkey] at hk
      exact absurd (hk.trans hj.symm) (hold k hkkey)
    · rw [if_neg hjkey] at hj
      rw [if_pos hkkey] at hk
      exact absurd (hj.trans hk.symm) (hold j hjkey)
    · rw [if_neg hjkey] at hj
      rw [if_neg hkkey] at hk
      exact h.apart hj hk
  held {handle} hmem := by
    rw [get?_acquire]
    rcases List.mem_cons.1 hmem with rfl | hmem
    · exact if_pos rfl
    · have hheld := h.held hmem
      split
      · next heq =>
        rcases locks.acquire_cases key with ⟨hkey, -⟩ | ⟨hkey, -⟩
        · rw [← hheld, heq, hkey]
        · rw [heq, hkey] at hheld
          cases hheld
      · exact hheld

/-! ### Giving a handle back -/

theorem Tracks.release {handle : LockHandle} (h : locks.Tracks (handle :: handles)) :
    (locks.release handle.mutex).Tracks handles where
  counted := by
    have hcounted := h.counted.erase handle.mutex
    rwa [List.map_cons, List.erase_cons_head] at hcounted
  used := h.used
  apart := h.apart
  held hmem := h.held (List.mem_cons_of_mem _ hmem)

/-- A mutex is counted as live just if there is a live handle for its key. -/
theorem Tracks.mem_live_iff (h : locks.Tracks handles) {mutex : Nat}
    (hkey : locks.table.get? key = some mutex) :
    mutex ∈ locks.live ↔ ∃ handle ∈ handles, handle.key = key := by
  rw [h.counted.mem_iff, List.mem_map]
  constructor
  · rintro ⟨handle, hmem, rfl⟩
    exact ⟨handle, hmem, h.apart (h.held hmem) hkey⟩
  · rintro ⟨handle, hmem, rfl⟩
    have hheld := h.held hmem
    rw [hkey] at hheld
    exact ⟨handle, hmem, (Option.some.inj hheld).symm⟩

/-! ### Dropping a mutex -/

/-- Of the table, all stays but the mutex of the key, and that stays too if a handle for it is live. -/
theorem Tracks.get?_evict (h : locks.Tracks handles) (key other : Bytes) :
    (locks.evict key).table.get? other =
      if other = key ∧ ∀ handle ∈ handles, handle.key ≠ key then none
      else locks.table.get? other := by
  unfold evict
  split
  · next mutex hmutex =>
    have hlive := h.mem_live_iff hmutex
    split
    · next hmem =>
      obtain ⟨handle, hhandle, hkey⟩ := hlive.1 hmem
      rw [if_neg fun hnone => hnone.2 handle hhandle hkey]
    · next hmem =>
      have hnone : ∀ handle ∈ handles, handle.key ≠ key := by
        intro handle hhandle hkey
        exact hmem (hlive.2 ⟨handle, hhandle, hkey⟩)
      rw [SortedMap.get?_erase, if_congr (and_iff_left hnone) rfl rfl]
  · next hmutex =>
    split
    · next heq => rw [heq.1, hmutex]
    · rfl

theorem evict_eq (locks : KeyLocks) (key : Bytes) :
    (locks.evict key).live = locks.live ∧ (locks.evict key).next = locks.next := by
  unfold evict
  split
  · split <;> exact ⟨rfl, rfl⟩
  · exact ⟨rfl, rfl⟩

theorem Tracks.evict (h : locks.Tracks handles) (key : Bytes) :
    (locks.evict key).Tracks handles := by
  obtain ⟨hlive, hnext⟩ := locks.evict_eq key
  have hget : ∀ {j mutex}, (locks.evict key).table.get? j = some mutex →
      locks.table.get? j = some mutex := by
    intro j mutex hj
    rw [h.get?_evict] at hj
    split at hj
    · cases hj
    · exact hj
  refine ⟨hlive ▸ h.counted, ?_, ?_, ?_⟩
  · intro j mutex hj
    exact hnext ▸ h.used (hget hj)
  · intro j k mutex hj hk
    exact h.apart (hget hj) (hget hk)
  · intro handle hmem
    rw [h.get?_evict, if_neg fun hnone => hnone.2 handle hmem hnone.1]
    exact h.held hmem

end KeyLocks

/-! ### Using the table -/

/-- What is done with a table of mutexes. -/
inductive LockUse where
  /-- Obtain a handle and keep it. -/
  | hold (key : Bytes)
  /-- Give a handle back, by its place among those that are kept, the latest first. -/
  | drop (place : Nat)
  /-- Do other things while a key is locked. To lock the same key again would be to wait for oneself, but
      that makes no difference to the table. -/
  | during (key : Bytes) (inner : List LockUse)

/-- The table at some moment, and the handles that are live then. -/
structure LockMoment where
  locks : KeyLocks
  /-- Those that were obtained to be kept, the latest first. -/
  kept : List LockHandle
  /-- Those of the keys that are locked, the innermost first. -/
  locked : List LockHandle
deriving DecidableEq

namespace LockMoment

def start : LockMoment := ⟨.empty, [], []⟩

def handles (m : LockMoment) : List LockHandle := m.kept ++ m.locked

def hold (m : LockMoment) (key : Bytes) : LockMoment :=
  ⟨(m.locks.acquire key).2, ⟨key, (m.locks.acquire key).1⟩ :: m.kept, m.locked⟩

def drop (m : LockMoment) (place : Nat) : LockMoment :=
  match m.kept[place]? with
  | some handle => ⟨m.locks.release handle.mutex, m.kept.eraseIdx place, m.locked⟩
  | none => m

/-- The key has been locked, and nothing has been done since. -/
def enter (m : LockMoment) (key : Bytes) : LockMoment :=
  ⟨(m.locks.acquire key).2, m.kept, ⟨key, (m.locks.acquire key).1⟩ :: m.locked⟩

end LockMoment

mutual

/-- The moment after a use. -/
def LockUse.after : LockUse → LockMoment → LockMoment
  | .hold key, m => m.hold key
  | .drop place, m => m.drop place
  | .during key inner, m =>
    let (kept, locks) := KeyLocks.withLock key (fun locks =>
      let last := afterAll inner { m.enter key with locks := locks }
      (last.kept, last.locks)) m.locks
    ⟨locks, kept, m.locked⟩

/-- The moment after some uses. -/
def afterAll : List LockUse → LockMoment → LockMoment
  | [], m => m
  | use :: rest, m => afterAll rest (use.after m)

end

mutual

/-- The moments inside a use, from the one when its key has been locked to the one before it is
    unlocked. -/
def LockUse.momentsInside : LockUse → LockMoment → List LockMoment
  | .during key inner, m => momentsAll inner (m.enter key)
  | _, _ => []

/-- The moments before, between and after some uses, and those inside them. -/
def momentsAll : List LockUse → LockMoment → List LockMoment
  | [], m => [m]
  | use :: rest, m => m :: (use.momentsInside m ++ momentsAll rest (use.after m))

end

namespace LockMoment

variable {m last : LockMoment} {key other : Bytes} {handle : LockHandle} {outer : List LockHandle}

/-- Whatever is done while a key is locked, its handle is given back afterwards, and the mutex dropped
    unless another handle is live. -/
theorem after_during (key : Bytes) (inner : List LockUse) (m : LockMoment) :
    (LockUse.during key inner).after m =
      ⟨(afterAll inner (m.enter key)).locks.finish key (m.locks.acquire key).1,
        (afterAll inner (m.enter key)).kept, m.locked⟩ := rfl

/-- After a use, the same keys are locked as before it. -/
theorem locked_after (use : LockUse) (m : LockMoment) : (use.after m).locked = m.locked := by
  cases use with
  | hold key => rfl
  | drop place =>
    rw [LockUse.after, drop]
    split <;> rfl
  | during key inner => rfl

theorem locked_afterAll (uses : List LockUse) (m : LockMoment) :
    (afterAll uses m).locked = m.locked := by
  induction uses generalizing m with
  | nil => rfl
  | cons use rest ih => rw [afterAll, ih, locked_after]

/-! ### The table and the handles stay in step -/

/-- The table at the moment is in step with the handles that are live then. -/
def InStep (m : LockMoment) : Prop := m.locks.Tracks m.handles

theorem inStep_start : start.InStep := KeyLocks.tracks_empty

theorem InStep.hold (h : m.InStep) (key : Bytes) : (m.hold key).InStep := h.acquire key

theorem InStep.drop (h : m.InStep) (place : Nat) : (m.drop place).InStep := by
  rw [LockMoment.drop]
  split
  · next handle hplace =>
    obtain ⟨hlt, rfl⟩ := List.getElem?_eq_some_iff.1 hplace
    have hkept : m.kept.Perm (m.kept[place] :: m.kept.eraseIdx place) :=
      (List.perm_cons_erase (List.getElem_mem hlt)).trans ((List.erase_getElem hlt).cons _)
    exact (KeyLocks.Tracks.perm h (hkept.append_right m.locked)).release
  · exact h

theorem InStep.enter (h : m.InStep) (key : Bytes) : (m.enter key).InStep :=
  (KeyLocks.Tracks.acquire h key).perm List.perm_middle.symm

/-- The handle of the innermost key that is locked has been given back. -/
theorem InStep.released (h : last.InStep) (hlocked : last.locked = handle :: outer) :
    (last.locks.release handle.mutex).Tracks (last.kept ++ outer) := by
  have hperm : last.handles.Perm (handle :: (last.kept ++ outer)) := by
    rw [handles, hlocked]
    exact List.perm_middle
  exact (KeyLocks.Tracks.perm h hperm).release

theorem InStep.leave (h : last.InStep) (hlocked : last.locked = handle :: outer) (key : Bytes) :
    InStep ⟨last.locks.finish key handle.mutex, last.kept, outer⟩ :=
  (h.released hlocked).evict key

mutual

/-- One use keeps the table in step, at its end and all the time inside. -/
theorem inStep_after (use : LockUse) (m : LockMoment) (h : m.InStep) :
    (use.after m).InStep ∧ ∀ p ∈ use.momentsInside m, p.InStep := by
  cases use with
  | hold key => exact ⟨h.hold key, fun p hp => by cases hp⟩
  | drop place => exact ⟨h.drop place, fun p hp => by cases hp⟩
  | during key inner =>
    obtain ⟨hlast, hinside⟩ := inStep_afterAll inner (m.enter key) (h.enter key)
    refine ⟨?_, hinside⟩
    rw [after_during]
    exact hlast.leave (locked_afterAll inner (m.enter key)) key

theorem inStep_afterAll (uses : List LockUse) (m : LockMoment) (h : m.InStep) :
    (afterAll uses m).InStep ∧ ∀ p ∈ momentsAll uses m, p.InStep := by
  cases uses with
  | nil =>
    refine ⟨h, fun p hp => ?_⟩
    rw [List.mem_singleton.1 hp]
    exact h
  | cons use rest =>
    obtain ⟨hafter, hinside⟩ := inStep_after use m h
    obtain ⟨hlast, hrest⟩ := inStep_afterAll rest (use.after m) hafter
    refine ⟨hlast, fun p hp => ?_⟩
    rcases List.mem_cons.1 hp with rfl | hp
    · exact h
    · rcases List.mem_append.1 hp with hp | hp
      · exact hinside p hp
      · exact hrest p hp

end

/-! ### What locking a key does to the table -/

theorem get?_enter (h : other ≠ key) (m : LockMoment) :
    (m.enter key).locks.table.get? other = m.locks.table.get? other := by
  rw [enter, KeyLocks.get?_acquire, if_neg h]

/-- When a key is unlocked, its mutex is dropped if no handle is live, and nothing else happens. -/
theorem InStep.get?_during (h : m.InStep) (key : Bytes) (inner : List LockUse) (other : Bytes) :
    ((LockUse.during key inner).after m).locks.table.get? other =
      if other = key ∧ ∀ handle ∈ ((LockUse.during key inner).after m).handles, handle.key ≠ key then
        none
      else (afterAll inner (m.enter key)).locks.table.get? other := by
  have hlast := (inStep_afterAll inner (m.enter key) (h.enter key)).1
  exact (hlast.released (locked_afterAll inner (m.enter key))).get?_evict key other

theorem InStep.contains_during_iff (h : m.InStep) (key : Bytes) (inner : List LockUse) :
    ((LockUse.during key inner).after m).locks.table.contains key ↔
      ∃ handle ∈ ((LockUse.during key inner).after m).handles, handle.key = key := by
  constructor
  · intro hcontains
    by_contra hno
    have hnone : ∀ handle ∈ ((LockUse.during key inner).after m).handles, handle.key ≠ key :=
      fun handle hmem hkey => hno ⟨handle, hmem, hkey⟩
    rw [SortedMap.contains, h.get?_during, if_pos ⟨rfl, hnone⟩] at hcontains
    cases hcontains
  · rintro ⟨handle, hmem, rfl⟩
    have hnext := (inStep_after (.during handle.key inner) m h).1
    rw [SortedMap.contains, hnext.held hmem]
    rfl

/-! ### Nothing but locking -/

/-- Every mutex in the table has a live handle. -/
def NoneIdle (m : LockMoment) : Prop :=
  ∀ key, m.locks.table.contains key → ∃ handle ∈ m.handles, handle.key = key

end LockMoment

mutual

/-- Whether no handle is obtained to be kept or given back, at any depth. -/
def LockUse.onlyLocks : LockUse → Bool
  | .during _ inner => onlyLockAll inner
  | _ => false

def onlyLockAll : List LockUse → Bool
  | [] => true
  | use :: rest => use.onlyLocks && onlyLockAll rest

end

namespace LockMoment

variable {m : LockMoment}

theorem NoneIdle.enter (h : m.NoneIdle) (key : Bytes) : (m.enter key).NoneIdle := by
  intro other hother
  rw [SortedMap.contains, LockMoment.enter, KeyLocks.get?_acquire] at hother
  by_cases heq : other = key
  · exact ⟨_, List.mem_append_right _ List.mem_cons_self, heq.symm⟩
  · rw [if_neg heq] at hother
    obtain ⟨handle, hmem, hkey⟩ := h other hother
    exact ⟨handle, List.perm_middle.mem_iff.2 (List.mem_cons_of_mem _ hmem), hkey⟩

/-- After a key has been unlocked, no mutex is idle if none was just before. -/
theorem NoneIdle.during (hm : m.InStep) {key : Bytes} {inner : List LockUse}
    (h : (afterAll inner (m.enter key)).NoneIdle) : ((LockUse.during key inner).after m).NoneIdle := by
  intro other hother
  by_cases heq : other = key
  · subst heq
    exact (hm.contains_during_iff other inner).1 hother
  · rw [SortedMap.contains, hm.get?_during, if_neg fun hnone => heq hnone.1] at hother
    obtain ⟨handle, hmem, rfl⟩ := h other hother
    rw [handles, locked_afterAll] at hmem
    rcases List.mem_cons.1 (List.perm_middle.mem_iff.1 hmem) with rfl | hmem
    · exact absurd rfl heq
    · exact ⟨handle, hmem, rfl⟩

mutual

theorem noneIdle_after (use : LockUse) (m : LockMoment) (honly : use.onlyLocks) (hm : m.InStep)
    (h : m.NoneIdle) : (use.after m).NoneIdle ∧ (use.after m).kept = m.kept := by
  cases use with
  | hold key => cases honly
  | drop place => cases honly
  | during key inner =>
    obtain ⟨hlast, hkept⟩ :=
      noneIdle_afterAll inner (m.enter key) honly (hm.enter key) (h.enter key)
    exact ⟨hlast.during hm, hkept⟩

theorem noneIdle_afterAll (uses : List LockUse) (m : LockMoment) (honly : onlyLockAll uses)
    (hm : m.InStep) (h : m.NoneIdle) :
    (afterAll uses m).NoneIdle ∧ (afterAll uses m).kept = m.kept := by
  cases uses with
  | nil => exact ⟨h, rfl⟩
  | cons use rest =>
    rw [onlyLockAll, Bool.and_eq_true] at honly
    obtain ⟨hafter, hkept⟩ := noneIdle_after use m honly.1 hm h
    obtain ⟨hlast, hsame⟩ :=
      noneIdle_afterAll rest (use.after m) honly.2 (inStep_after use m hm).1 hafter
    exact ⟨hlast, hsame.trans hkept⟩

end

theorem isEmpty_of_noneIdle (h : m.NoneIdle) (hhandles : m.handles = []) : m.locks.isEmpty := by
  have htable : m.locks.table = .empty := by
    apply SortedMap.ext
    intro key
    cases hget : m.locks.table.get? key with
    | none => rfl
    | some mutex =>
      obtain ⟨handle, hmem, -⟩ := h key (by rw [SortedMap.contains, hget]; rfl)
      rw [hhandles] at hmem
      cases hmem
  rw [KeyLocks.isEmpty, htable]
  rfl

/-- However a table is used, at every moment, also inside: the live handles are those that are counted, the
    table holds the mutex of each for its key, and two of them are handles to one mutex just if they are
    for one key. Wherever a key is locked, it is in the table afterwards just if a handle for it is live,
    and neither locking nor unlocking it changes what the table holds for other keys. Where nothing is done
    but locking, the table is empty in the end. -/
theorem one_mutex_for_each_key (uses : List LockUse) :
    (∀ m ∈ momentsAll uses .start,
      m.locks.live.Perm (m.handles.map (·.mutex)) ∧
      (∀ a ∈ m.handles, m.locks.table.get? a.key = some a.mutex ∧
        ∀ b ∈ m.handles, a.mutex = b.mutex ↔ a.key = b.key) ∧
      ∀ key inner,
        (((LockUse.during key inner).after m).locks.table.contains key ↔
          ∃ handle ∈ ((LockUse.during key inner).after m).handles, handle.key = key) ∧
        ∀ other, other ≠ key →
          (m.enter key).locks.table.get? other = m.locks.table.get? other ∧
          ((LockUse.during key inner).after m).locks.table.get? other =
            (afterAll inner (m.enter key)).locks.table.get? other) ∧
    (onlyLockAll uses → (afterAll uses .start).locks.isEmpty) := by
  refine ⟨fun m hmem => ?_, fun honly => ?_⟩
  · have hm : m.InStep := (inStep_afterAll uses .start inStep_start).2 m hmem
    refine ⟨hm.counted, fun a ha => ⟨hm.held ha, fun b hb => hm.mutex_eq_iff ha hb⟩, ?_⟩
    intro key inner
    refine ⟨hm.contains_during_iff key inner, fun other hother => ⟨get?_enter hother m, ?_⟩⟩
    rw [hm.get?_during, if_neg fun hnone => hother hnone.1]
  · have hstart : start.NoneIdle := fun key hkey => by cases hkey
    obtain ⟨hlast, hkept⟩ := noneIdle_afterAll uses .start honly inStep_start hstart
    have hhandles : (afterAll uses .start).handles = [] := by
      rw [handles, hkept, locked_afterAll]
      rfl
    exact isEmpty_of_noneIdle hlast hhandles

/-- A handle is kept while another key is locked. Its own key is locked inside, and so is not dropped from
    the table; where no handle is kept, both keys are. -/
theorem one_mutex_for_each_key_nested :
    let uses : List LockUse := [.hold [1], .during [2] [.during [1] [], .drop 0]]
    let inside : LockMoment := afterAll [.during [1] []] ((LockMoment.start.hold [1]).enter [2])
    let locking : List LockUse := [.during [1] [.during [2] []], .during [2] []]
    (inside ∈ momentsAll uses .start ∧ inside.handles = [⟨[1], 0⟩, ⟨[2], 1⟩] ∧ onlyLockAll locking) ∧
      inside.locks.table.get? [1] = some 0 ∧ inside.locks.table.get? [2] = some 1 ∧
      ((LockUse.during [1] []).after inside).locks.table.contains [1] ∧
      (afterAll locking .start).locks.isEmpty := by
  intro uses inside locking
  have hinside : inside ∈ momentsAll uses .start := by decide +kernel
  have hhandles : inside.handles = [⟨[1], 0⟩, ⟨[2], 1⟩] := by decide +kernel
  have hafter : ((LockUse.during [1] []).after inside).handles = inside.handles := by decide +kernel
  have honly : onlyLockAll locking := rfl
  obtain ⟨-, hheld, hduring⟩ := (one_mutex_for_each_key uses).1 inside hinside
  rw [hhandles] at hheld
  have hcontains := (hduring [1] []).1.2 ⟨⟨[1], 0⟩, by rw [hafter, hhandles]; simp, rfl⟩
  exact ⟨⟨hinside, hhandles, honly⟩, (hheld ⟨[1], 0⟩ (by simp)).1, (hheld ⟨[2], 1⟩ (by simp)).1,
    hcontains, (one_mutex_for_each_key locking).2 honly⟩

end LockMoment

end TypedStore
