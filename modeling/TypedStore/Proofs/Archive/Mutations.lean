/-
  TypedStore/Proofs/Archive/Mutations.lean
  ========================================
  **Changes of the entries, and how they are taken back.**

  An operation that changes the entries changes them in memory, commits what is there then, and
  takes its change back if the commit has failed. What takes it back is another one for each
  operation: a key gets the value it had, or is taken away again, the cleared entries come back, or
  those that were to give way to an earlier generation (`Reverts`). So an operation that fails leaves
  the archive as it was (`persist_error`, `remove_error`, `clear_error`, `restore_error`).

  Seen from outside it is as if the entries changed only after their commit (`replace`). Each
  operation has this form (`persist_eq`, `remove_eq`, `clear_eq`, `restore_eq`), which is what is
  used of them from here on.
-/
import TypedStore.Archive.Basic
import TypedStore.Proofs.Archive.Commit
import TypedStore.Proofs.SortedMap

namespace TypedStore.Archive

variable {s t : Journaled Mounted} {key value : Bytes} {entries : Json.RawObject}
  {fault : StorageFault} {u : Unit}

/-! ### The parts of the operations -/

theorem keyText_of_ok {name : String} (h : Utf8.decode key = .ok name) :
    keyText key s = .ok name s := by
  rw [keyText, h]
  rfl

theorem keyText_of_error {fault : Utf8.Fault} (h : Utf8.decode key = .error fault) :
    keyText key s = .error (.keyNotText fault) s := by
  rw [keyText, h]
  rfl

theorem current_apply (s : Journaled Mounted) : current s = .ok s.state.archive.entries s := rfl

theorem valueText_of_ok {text : String} {raw : Json.RawText} (h : Utf8.decode value = .ok text)
    (hraw : Json.RawText.ofChars? text.toList = some raw) : valueText value s = .ok raw s := by
  rw [valueText, h]
  change Op.ofExcept ((Json.RawText.ofChars? text.toList).elim _ _) s = _
  rw [hraw]
  rfl

/-- A value that is no text, or no JSON, is refused. -/
theorem valueText_of_not (h : ∀ text raw, Utf8.decode value = .ok text →
    Json.RawText.ofChars? text.toList ≠ some raw) :
    ∃ fault, valueText value s = .error fault s := by
  cases hvalue : Utf8.decode value with
  | error fault =>
    refine ⟨.valueNotText fault, ?_⟩
    rw [valueText, hvalue]
    rfl
  | ok text =>
    refine ⟨.notJson, ?_⟩
    rw [valueText, hvalue]
    change Op.ofExcept ((Json.RawText.ofChars? text.toList).elim _ _) s = _
    cases hraw : Json.RawText.ofChars? text.toList with
    | none => rfl
    | some raw => exact absurd hraw (h text raw hvalue)

/-! ### Commits -/

/-- The same archive on the same disk, with other entries in memory. -/
def holding (s : Mounted) (entries : Json.RawObject) : Mounted :=
  { s with archive := { s.archive with entries := entries } }

/-- Commit entries, and only then make them those of the archive. No operation goes about it in this
    way, but all of them come to it (`edit_flush_eq`). -/
def replace (entries : Json.RawObject) : Op StorageFault Mounted Unit := do
  let archive := (← Op.state).archive
  let bytes := Json.RawObject.toBytes entries
  (archive.files.commit archive.keep archive.committed bytes).within
    Mounted.disk (fun s disk => { s with disk := disk })
  Op.setState
    { (← Op.state) with archive := { archive with entries := entries, committed := some bytes } }

theorem edit_apply (f : Json.RawObject → Json.RawObject) (s : Journaled Mounted) :
    edit f s = .ok () ⟨holding s.state (f s.state.archive.entries), s.events⟩ := rfl

section

variable {commit : Op StorageFault Disk Unit} {change : Mounted → Mounted}

/-- A commit on the disk, and what is set when it has succeeded. -/
theorem commit_set_eq_ok_iff :
    (do
      commit.within Mounted.disk (fun s disk => { s with disk := disk })
      Op.setState (change (← Op.state)) : Op StorageFault Mounted Unit) s = .ok u t ↔
      ∃ r, commit ⟨s.state.disk, s.events⟩ = .ok () r ∧
        t = ⟨change { s.state with disk := r.state }, r.events⟩ := by
  simp only [Op.bind_eq_ok_iff, Op.within_eq_ok_iff]
  constructor
  · rintro ⟨_, _, ⟨r, hcommit, rfl⟩, _, _, hstate, hset⟩
    cases hstate
    cases hset
    exact ⟨r, hcommit, rfl⟩
  · rintro ⟨r, hcommit, rfl⟩
    exact ⟨(), _, ⟨r, hcommit, rfl⟩, _, _, rfl, rfl⟩

theorem commit_set_eq_error_iff :
    (do
      commit.within Mounted.disk (fun s disk => { s with disk := disk })
      Op.setState (change (← Op.state)) : Op StorageFault Mounted Unit) s = .error fault t ↔
      ∃ r, commit ⟨s.state.disk, s.events⟩ = .error fault r ∧
        t = ⟨{ s.state with disk := r.state }, r.events⟩ := by
  rw [Op.bind_eq_error_iff, Op.within_eq_error_iff]
  constructor
  · rintro (hcommit | ⟨_, _, -, hset⟩)
    · exact hcommit
    · cases hset
  · exact .inl

end

theorem flush_eq_ok_iff :
    flush s = .ok u t ↔
      ∃ r, s.state.archive.files.commit s.state.archive.keep s.state.archive.committed
          s.state.archive.entries.toBytes ⟨s.state.disk, s.events⟩ = .ok () r ∧
        t = ⟨⟨r.state, { s.state.archive with
          committed := some s.state.archive.entries.toBytes }⟩, r.events⟩ := by
  rw [flush, Op.bind_of_ok (Op.state_apply s)]
  exact commit_set_eq_ok_iff

/-- A failed commit has no effect in memory: what has been changed there still is. -/
theorem flush_eq_error_iff :
    flush s = .error fault t ↔
      ∃ r, s.state.archive.files.commit s.state.archive.keep s.state.archive.committed
          s.state.archive.entries.toBytes ⟨s.state.disk, s.events⟩ = .error fault r ∧
        t = ⟨⟨r.state, s.state.archive⟩, r.events⟩ := by
  rw [flush, Op.bind_of_ok (Op.state_apply s)]
  exact commit_set_eq_error_iff

theorem replace_eq_ok_iff :
    replace entries s = .ok u t ↔
      ∃ r, s.state.archive.files.commit s.state.archive.keep s.state.archive.committed
          entries.toBytes ⟨s.state.disk, s.events⟩ = .ok () r ∧
        t = ⟨⟨r.state, { s.state.archive with
          entries := entries, committed := some entries.toBytes }⟩, r.events⟩ := by
  rw [replace, Op.bind_of_ok (Op.state_apply s)]
  exact commit_set_eq_ok_iff

/-- Entries that cannot be committed do not take the place of those before. -/
theorem replace_eq_error_iff :
    replace entries s = .error fault t ↔
      ∃ r, s.state.archive.files.commit s.state.archive.keep s.state.archive.committed
          entries.toBytes ⟨s.state.disk, s.events⟩ = .error fault r ∧
        t = ⟨⟨r.state, s.state.archive⟩, r.events⟩ := by
  rw [replace, Op.bind_of_ok (Op.state_apply s)]
  exact commit_set_eq_error_iff

/-- If the entries cannot be replaced, a file operation has failed. -/
theorem replace_failsOnly (entries : Json.RawObject) :
    Op.FailsOnly FileSet.IsDiskFault (replace entries) := by
  intro s fault t h
  obtain ⟨r, hcommit, -⟩ := replace_eq_error_iff.1 h
  exact FileSet.commit_failsOnly _ _ _ _ _ _ _ hcommit

/-- Entries that are committed from memory are those that replace the others. -/
theorem replace_of_flush_ok (h : flush ⟨holding s.state entries, s.events⟩ = .ok u t) :
    replace entries s = .ok u t := by
  obtain ⟨r, hcommit, rfl⟩ := flush_eq_ok_iff.1 h
  exact replace_eq_ok_iff.2 ⟨r, hcommit, rfl⟩

theorem replace_of_flush_error (h : flush ⟨holding s.state entries, s.events⟩ = .error fault t) :
    replace entries s = .error fault ⟨⟨t.state.disk, s.state.archive⟩, t.events⟩ := by
  obtain ⟨r, hcommit, rfl⟩ := flush_eq_error_iff.1 h
  exact replace_eq_error_iff.2 ⟨r, hcommit, rfl⟩

/-! ### Taking a change back -/

/-- The operation gives back the entries before a change, if there are those after it. -/
def Reverts (undo : Op StorageFault Mounted Unit) (before changed : Json.RawObject) : Prop :=
  ∀ s : Journaled Mounted, s.state.archive.entries = changed →
    undo s = .ok () ⟨holding s.state before, s.events⟩

theorem reverts_edit {f : Json.RawObject → Json.RawObject} {before changed : Json.RawObject}
    (h : f changed = before) : Reverts (edit f) before changed := by
  rintro s rfl
  rw [edit_apply, h]

/-- A value has been put under a key: the one before is put back, or the key is taken away. -/
theorem reverts_reinstate (entries : Json.RawObject) (name : String) (raw : Json.RawText) :
    Reverts (reinstate name (entries.get? name)) entries (entries.insert name raw) := by
  cases hold : entries.get? name with
  | some old =>
    rw [reinstate]
    apply reverts_edit
    exact SortedMap.insert_insert_of_get? hold raw
  | none =>
    rw [reinstate]
    apply reverts_edit
    exact SortedMap.erase_insert_of_get? hold raw

/-- A value has been taken away from a key. -/
theorem reverts_insert {name : String} {old : Json.RawText} (h : entries.get? name = some old) :
    Reverts (edit (·.insert name old)) entries (entries.erase name) := by
  apply reverts_edit
  exact SortedMap.insert_erase_of_get? h

/-- All the entries have given way to others. -/
theorem reverts_const (before changed : Json.RawObject) :
    Reverts (edit fun _ => before) before changed := by
  apply reverts_edit
  rfl

section EditFlush

variable {α : Type} {f : Json.RawObject → Json.RawObject} {undo : Op StorageFault Mounted Unit}
  {next : Except StorageFault Unit → Op StorageFault Mounted α}

theorem edit_flush_of_ok
    (h : flush ⟨holding s.state (f s.state.archive.entries), s.events⟩ = .ok u t) :
    (edit f >>= fun _ => flush.attempt >>= next) s = next (.ok u) t := by
  rw [Op.bind_of_ok (edit_apply f s), Op.bind_of_ok (Op.attempt_of_ok h)]

variable (hundo : Reverts undo s.state.archive.entries (f s.state.archive.entries))
  (herror : ∀ fault, next (.error fault) = undo >>= fun _ => throw fault)
include hundo herror

theorem edit_flush_of_error
    (h : flush ⟨holding s.state (f s.state.archive.entries), s.events⟩ = .error fault t) :
    (edit f >>= fun _ => flush.attempt >>= next) s =
      .error fault ⟨⟨t.state.disk, s.state.archive⟩, t.events⟩ := by
  rw [Op.bind_of_ok (edit_apply f s), Op.bind_of_ok (Op.attempt_of_error h), herror]
  obtain ⟨r, -, rfl⟩ := flush_eq_error_iff.1 h
  rw [Op.bind_of_ok (hundo _ rfl)]
  rfl

/-- An edit that cannot be committed is taken back. -/
theorem edit_flush_error (hok : Op.FailsOnly (fun _ => False) (next (.ok ())))
    (h : (edit f >>= fun _ => flush.attempt >>= next) s = .error fault t) :
    t.state.archive = s.state.archive := by
  cases hflush : flush ⟨holding s.state (f s.state.archive.entries), s.events⟩ with
  | ok _ r =>
    rw [edit_flush_of_ok hflush] at h
    exact (hok _ _ _ h).elim
  | error _ r =>
    rw [edit_flush_of_error hundo herror hflush] at h
    cases h
    rfl

/-- To edit the entries, to commit them and to take the edit back if that fails is to commit them
    and to set them afterwards. -/
theorem edit_flush_eq :
    (edit f >>= fun _ => flush.attempt >>= next) s =
      (replace (f s.state.archive.entries) >>= fun _ => next (.ok ())) s := by
  cases hflush : flush ⟨holding s.state (f s.state.archive.entries), s.events⟩ with
  | ok _ r =>
    rw [edit_flush_of_ok hflush, Op.bind_of_ok (replace_of_flush_ok hflush)]
  | error _ r =>
    rw [edit_flush_of_error hundo herror hflush, Op.bind_of_error (replace_of_flush_error hflush)]

end EditFlush

/-! ### Operations that fail -/

/-- A value that cannot be stored does not stay in memory. -/
theorem persist_error (h : medium.persist key value s = .error fault t) :
    t.state.archive = s.state.archive := by
  change (keyText key >>= _) s = _ at h
  rw [keyText] at h
  rcases Op.ofExcept_bind_eq_error_iff.1 h with ⟨-, rfl⟩ | ⟨name, -, h⟩
  · rfl
  rw [valueText] at h
  rcases Op.ofExcept_bind_eq_error_iff.1 h with ⟨-, rfl⟩ | ⟨raw, -, h⟩
  · rfl
  rw [Op.bind_of_ok (current_apply s)] at h
  refine edit_flush_error (reverts_reinstate _ name raw) (fun _ => rfl) ?_ h
  exact Op.failsOnly_pure ()

/-- A value that cannot be removed is in memory again. -/
theorem remove_error (h : medium.remove key s = .error fault t) :
    t.state.archive = s.state.archive := by
  change (keyText key >>= _) s = _ at h
  rw [keyText] at h
  rcases Op.ofExcept_bind_eq_error_iff.1 h with ⟨-, rfl⟩ | ⟨name, -, h⟩
  · rfl
  rw [Op.bind_of_ok (current_apply s)] at h
  cases hold : s.state.archive.entries.get? name with
  | none =>
    rw [hold] at h
    cases h
  | some old =>
    rw [hold] at h
    refine edit_flush_error (reverts_insert hold) (fun _ => rfl) ?_ h
    exact Op.failsOnly_pure true

/-- Entries that cannot be cleared are in memory again. -/
theorem clear_error (h : medium.clear s = .error fault t) :
    t.state.archive = s.state.archive := by
  change (current >>= _) s = _ at h
  rw [Op.bind_of_ok (current_apply s)] at h
  split at h
  · cases h
  · refine edit_flush_error (reverts_const _ .empty) (fun _ => rfl) ?_ h
    exact Op.failsOnly_pure _

/-- A generation that cannot be restored does not stay in memory. -/
theorem restore_error {generation : Nat} (h : restore generation s = .error fault t) :
    t.state.archive = s.state.archive := by
  rw [restore, Op.bind_of_ok (Op.state_apply s)] at h
  rcases Op.look_bind_eq_error_iff.1 h with ⟨-, rfl⟩ | ⟨bytes, -, h⟩
  · rfl
  rcases Op.look_bind_eq_error_iff.1 h with ⟨-, rfl⟩ | ⟨restored, -, h⟩
  · rfl
  rw [Op.bind_of_ok (current_apply s)] at h
  refine edit_flush_error (reverts_const _ restored) (fun _ => rfl) ?_ h
  intro _ _ _ hreport
  cases hreport

/-! ### Operations that commit first -/

theorem persist_eq (key value : Bytes) :
    medium.persist key value = (do
      let key ← keyText key
      let value ← valueText value
      replace ((← current).insert key value)) := by
  refine bind_congr fun name => bind_congr fun raw => funext fun s => ?_
  rw [Op.bind_of_ok (current_apply s), Op.bind_of_ok (current_apply s)]
  exact (edit_flush_eq (reverts_reinstate _ name raw) fun _ => rfl).trans
    (congrFun bind_pure_unit s)

theorem remove_eq (key : Bytes) :
    medium.remove key = (do
      let key ← keyText key
      let entries ← current
      if entries.contains key then
        replace (entries.erase key)
        return true
      else return false) := by
  refine bind_congr fun name => funext fun s => ?_
  rw [Op.bind_of_ok (current_apply s), Op.bind_of_ok (current_apply s), SortedMap.contains]
  cases hold : s.state.archive.entries.get? name with
  | none => rfl
  | some old =>
    exact edit_flush_eq (reverts_insert hold) fun _ => rfl

theorem clear_eq :
    medium.clear = (do
      let entries ← current
      if entries.isEmpty then return 0
      else
        replace .empty
        return entries.size) := by
  funext s
  change (current >>= _) s = _
  rw [Op.bind_of_ok (current_apply s), Op.bind_of_ok (current_apply s)]
  split
  · rfl
  · exact edit_flush_eq (reverts_const _ .empty) fun _ => rfl

theorem restore_eq (generation : Nat) :
    restore generation = (do
      let files := (← Op.state).archive.files
      let bytes ← Op.look fun s => (s.disk.read (files.data generation)).mapError .disk
      let entries ← Op.look fun s =>
        FileSet.parseVerified bytes (files.data generation) (files.checksum generation) s.disk
      replace entries
      Op.report (.restored generation entries.size)) := by
  refine bind_congr fun before => bind_congr fun bytes => bind_congr fun restored =>
    funext fun s => ?_
  rw [Op.bind_of_ok (current_apply s)]
  refine (edit_flush_eq (reverts_const _ restored) fun _ => rfl).trans ?_
  cases hreplace : replace restored s with
  | error _ t => rw [Op.bind_of_error hreplace, Op.bind_of_error hreplace]
  | ok _ t =>
    rw [Op.bind_of_ok hreplace, Op.bind_of_ok hreplace]
    obtain ⟨_, -, rfl⟩ := replace_eq_ok_iff.1 hreplace
    rfl

end TypedStore.Archive
