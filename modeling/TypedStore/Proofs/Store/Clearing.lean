/-
  TypedStore/Proofs/Store/Clearing.lean
  =====================================
  **What is left when not everything can be removed.**

  A medium with the four required operations only is cleared key by key. If it fails on the way, the
  keys that come first in its listing are gone, and everything else is as it was; how far it has come
  is not undone (`removeEach_error`). An archive is cleared by one commit, and if that fails it has
  all its entries still. So what a failed reset leaves depends on the medium
  (`failed_reset_drops_front`).
-/
import TypedStore.Proofs.Archive.FailedCalls
import TypedStore.Proofs.Store.Entries

namespace TypedStore

/-! ### Look-ups without some keys -/

namespace Lookup

/-- What is under each key, after some have been dropped. -/
def without (look : Lookup) (dropped : List Bytes) : Lookup := fun key =>
  if key ∈ dropped then none else look key

theorem without_nil (look : Lookup) : look.without [] = look := by
  funext key
  exact if_neg List.not_mem_nil

theorem without_cons (look : Lookup) (key : Bytes) (dropped : List Bytes) :
    look.without (key :: dropped) = without (Function.update look key none) dropped := by
  funext other
  unfold without
  by_cases heq : other = key
  · subst heq
    rw [if_pos List.mem_cons_self, Function.update_self, ite_self]
  · rw [Function.update_of_ne heq]
    simp [heq]

end Lookup

namespace Medium

variable {σ : Type}

/-- Removing a key and listing all of them are what they are for a map, of which `rep` says how it is
    represented. Each may fail at any call, and has no effect then. -/
structure DropsAsMap (remove : Bytes → Op StorageFault σ Bool)
    (keys : Op StorageFault σ (List Bytes)) (rep : σ → Lookup → Prop) : Prop where
  remove {s : Journaled σ} {look : Lookup} (key : Bytes) (hrep : rep s.state look) :
    (∃ t, remove key s = .ok (look key).isSome t ∧ rep t.state (Function.update look key none)) ∨
      ∃ fault t, remove key s = .error fault t ∧ rep t.state look
  keys {s : Journaled σ} {look : Lookup} (hrep : rep s.state look) :
    (∃ listed t, keys s = .ok listed t ∧ look.Lists listed ∧ rep t.state look) ∨
      ∃ fault t, keys s = .error fault t ∧ rep t.state look

/-- How clearing a medium key by key fails: it cannot list the keys, and nothing has been dropped; or it
    cannot remove one of those that it has listed, and just the ones before that have been dropped. -/
inductive Stops (remove : Bytes → Op StorageFault σ Bool) (keys : Op StorageFault σ (List Bytes))
    (rep : σ → Lookup → Prop) (look : Lookup) (s : Journaled σ) (fault : StorageFault)
    (t : Journaled σ) : Prop where
  | listing : keys s = .error fault t → rep t.state look → Stops remove keys rep look s fault t
  | removal {dropped rest : List Bytes} {key : Bytes} {before : Journaled σ} :
    look.Lists (dropped ++ key :: rest) → rep before.state (look.without dropped) →
      remove key before = .error fault t → rep t.state (look.without dropped) →
        Stops remove keys rep look s fault t

section Drops

variable {persist : Bytes → Bytes → Op StorageFault σ Unit}
  {retrieve : Bytes → Op StorageFault σ (Option Bytes)}
  {remove : Bytes → Op StorageFault σ Bool} {keys : Op StorageFault σ (List Bytes)}
  {rep : σ → Lookup → Prop} {s t : Journaled σ} {look : Lookup} {fault : StorageFault}

/-- Removing keys one by one stops at the first that cannot be removed. -/
theorem removeEach_error (h : DropsAsMap remove keys rep) {listed : List Bytes} {removed : Nat}
    (hrep : rep s.state look) (herror : removeEach remove removed listed s = .error fault t) :
    ∃ dropped key rest before, listed = dropped ++ key :: rest ∧
      rep before.state (look.without dropped) ∧ remove key before = .error fault t ∧
        rep t.state (look.without dropped) := by
  induction listed generalizing s look removed with
  | nil => cases herror
  | cons key rest ih =>
    rw [removeEach] at herror
    rcases h.remove key hrep with ⟨r, hremove, hrep'⟩ | ⟨fault', r, hremove, hrep'⟩
    · rw [Op.bind_of_ok hremove] at herror
      obtain ⟨dropped, other, rest', before, rfl, hbefore, hfail, hafter⟩ := ih hrep' herror
      rw [← Lookup.without_cons] at hbefore hafter
      exact ⟨key :: dropped, other, rest', before, rfl, hbefore, hfail, hafter⟩
    · rw [Op.bind_of_error hremove] at herror
      cases herror
      rw [← Lookup.without_nil look] at hrep hrep'
      exact ⟨[], key, rest, s, rfl, hrep, hremove, hrep'⟩

theorem clear_error (h : DropsAsMap remove keys rep) (hrep : rep s.state look)
    (herror : (ofRequired persist retrieve remove keys).clear s = .error fault t) :
    Stops remove keys rep look s fault t := by
  change (keys >>= fun listed => removeEach remove 0 listed) s = _ at herror
  rcases h.keys hrep with ⟨listed, r, hkeys, hlists, hrep'⟩ | ⟨fault', r, hkeys, hrep'⟩
  · rw [Op.bind_of_ok hkeys] at herror
    obtain ⟨dropped, key, rest, before, rfl, hbefore, hfail, hafter⟩ :=
      removeEach_error h hrep' herror
    exact .removal hlists hbefore hfail hafter
  · rw [Op.bind_of_error hkeys] at herror
    cases herror
    exact .listing hkeys hrep'

end Drops

end Medium

namespace Store

variable {σ : Type} {fault : StorageFault}

/-- Resetting everything fails just where clearing the medium does. -/
theorem resetAll_error {store : Store σ} {s t : Journaled (Session σ)}
    (h : store.resetAll s = .error fault t) :
    ∃ r, store.medium.clear ⟨s.state.medium, s.events⟩ = .error fault r ∧
      t.state.medium = r.state := by
  unfold resetAll at h
  rcases Op.bind_eq_error_iff.1 h with hclear | ⟨count, r, -, hrest⟩
  · obtain ⟨r, hr, rfl⟩ := Op.within_eq_error_iff.1 hclear
    exact ⟨r, hr, rfl⟩
  · cases hrest

/-- What a reset that fails leaves. On a medium that is cleared key by key it has dropped nothing if the
    keys could not be listed, and else exactly the keys before the one that could not be removed;
    whatever else was stored is stored still, with the same bytes. An archive has all that it had. -/
theorem failed_reset_drops_front {persist : Bytes → Bytes → Op StorageFault σ Unit}
    {retrieve : Bytes → Op StorageFault σ (Option Bytes)}
    {remove : Bytes → Op StorageFault σ Bool} {keys : Op StorageFault σ (List Bytes)}
    {rep : σ → Lookup → Prop} (hdrops : Medium.DropsAsMap remove keys rep) :
    (∀ (store : Store σ) (s t : Journaled (Session σ)) (look : Lookup) (fault : StorageFault),
      store.medium = .ofRequired persist retrieve remove keys → rep s.state.medium look →
      store.resetAll s = .error fault t → ∃ r, t.state.medium = r.state ∧
        Medium.Stops remove keys rep look ⟨s.state.medium, s.events⟩ fault r) ∧
    ∀ (store : Store Mounted) (s t : Journaled (Session Mounted)) (fault : StorageFault),
      store.medium = Archive.medium → store.resetAll s = .error fault t →
        t.state.medium.archive = s.state.medium.archive := by
  refine ⟨?_, ?_⟩
  · intro store s t look fault hmedium hrep hreset
    obtain ⟨r, hclear, hstate⟩ := resetAll_error hreset
    rw [hmedium] at hclear
    exact ⟨r, hstate, Medium.clear_error hdrops hrep hclear⟩
  · intro store s t fault hmedium hreset
    obtain ⟨r, hclear, hstate⟩ := resetAll_error hreset
    rw [hmedium] at hclear
    have hperform : Archive.Call.clear.perform ⟨s.state.medium, s.events⟩ = .error fault r :=
      Op.bind_of_error hclear
    rw [hstate]
    rcases Archive.Call.perform_error hperform with ⟨-, rfl⟩ | ⟨_, _, -, -, rfl⟩
    · rfl
    · rfl

/-! ### A medium that removes only so many keys -/

/-- A map in memory that can remove a number of keys and then no more. -/
structure Rationed where
  entries : SortedMap Bytes Bytes
  removals : Nat
deriving DecidableEq

namespace Rationed

def remove (key : Bytes) : Op StorageFault Rationed Bool := do
  let s ← Op.state
  match s.removals with
  | 0 => throw (.unavailable "remove")
  | left + 1 =>
    Op.setState ⟨s.entries.erase key, left⟩
    return s.entries.contains key

def keys : Op StorageFault Rationed (List Bytes) := do return (← Op.state).entries.keys

def medium : Medium Rationed :=
  .ofRequired (fun key value => do
      let s ← Op.state
      Op.setState { s with entries := s.entries.insert key value })
    (fun key => do return (← Op.state).entries.get? key) remove keys

theorem dropsAsMap : Medium.DropsAsMap remove keys fun s look => s.entries.get? = look := by
  constructor
  · rintro ⟨⟨entries, removals⟩, events⟩ look key rfl
    cases removals with
    | zero => exact .inr ⟨_, _, rfl, rfl⟩
    | succ left => exact .inl ⟨_, rfl, SortedMap.get?_erase_eq _ _⟩
  · rintro ⟨⟨entries, removals⟩, events⟩ look rfl
    exact .inl ⟨_, _, rfl, Medium.lists_keys entries, rfl⟩

/-- Two entries, of which only one can be removed. -/
def two : Journaled (Session Rationed) :=
  ⟨⟨⟨.ofList [([1], [10]), ([2], [20])], 1⟩, .empty⟩, []⟩

end Rationed

/-- One of two keys can be removed from a medium in memory, and an archive has a directory where the
    draft of its data file belongs. -/
theorem failed_reset_drops_front_rationed :
    let store : Store Rationed := .ephemeral Rationed.medium
    let t := store.resetAll.after Rationed.two
    let files : FileSet := ⟨["d"], 0⟩
    let persisted := ((Archive.Call.persist (Utf8.encode "k") (Utf8.encode "1")).perform.after
      ⟨⟨Disk.empty.set ["d"] .directory, ⟨files, 3, .empty, none⟩⟩, []⟩).state
    let disk := persisted.disk.set (files.slotPlace ⟨.data, 0, true⟩) .directory
    let s : Journaled (Session Mounted) := ⟨⟨⟨disk, persisted.archive⟩, .empty⟩, []⟩
    let u := (ephemeral Archive.medium).resetAll.after s
    (Medium.DropsAsMap Rationed.remove Rationed.keys (fun r look => r.entries.get? = look) ∧
      store.resetAll Rationed.two = .error (.unavailable "remove") t ∧
      (ephemeral Archive.medium).resetAll s = .error (.disk .isDirectory) u) ∧
    (∃ dropped key rest, Lookup.Lists Rationed.two.state.medium.entries.get?
        (dropped ++ key :: rest) ∧
      t.state.medium.entries.get? =
        Lookup.without Rationed.two.state.medium.entries.get? dropped) ∧
    u.state.medium.archive = persisted.archive := by
  intro store t files persisted disk s u
  have hreset : store.resetAll Rationed.two = .error (.unavailable "remove") t :=
    Op.eq_error_of_outcome (by decide +kernel)
  have hreset' : (ephemeral Archive.medium).resetAll s = .error (.disk .isDirectory) u :=
    Op.eq_error_of_outcome (by decide +kernel)
  obtain ⟨hrequired, harchive⟩ := failed_reset_drops_front Rationed.dropsAsMap
  refine ⟨⟨Rationed.dropsAsMap, hreset, hreset'⟩, ?_, harchive _ s u _ rfl hreset'⟩
  obtain ⟨r, hmedium, hstops⟩ := hrequired store Rationed.two t _ _ rfl rfl hreset
  rw [hmedium]
  cases hstops with
  | listing hkeys _ => cases hkeys
  | @removal dropped rest key _ hlists _ _ hafter => exact ⟨dropped, key, rest, hlists, hafter⟩

/-- After a reset that has failed, one of two entries is gone. -/
theorem failed_reset_drops_entry :
    let store : Store Rationed := .ephemeral Rationed.medium
    let t := store.resetAll.after Rationed.two
    Medium.DropsAsMap Rationed.remove Rationed.keys (fun r look => r.entries.get? = look) ∧
    store.resetAll.outcome Rationed.two = .error (.unavailable "remove") ∧
    Rationed.two.state.medium.entries.get? [1] = some [10] ∧
    t.state.medium.entries.get? [1] = none ∧
    t.state.medium.entries.get? [2] = some [20] := by
  refine ⟨Rationed.dropsAsMap, ?_⟩
  decide +kernel

end Store

end TypedStore
