/-
  TypedStore/Proofs/Archive/Calls.lean
  ====================================
  **Runs of calls that change an archive.**

  A call either idles, or makes some entries the current ones by a commit, or its arguments are not
  fit and it fails without effect (`perform_cases`, `perform_of_not_fit`). What it makes is said by
  `Call.Makes` alone, so nothing else has to be known of the calls to follow a run of them.

  In a `Run` the file operations succeed: calls fail only for their arguments.
-/
import TypedStore.Proofs.Archive.Mutations
import TypedStore.Proofs.Codec.RawObject

namespace TypedStore.Archive

/-- A call that may change the entries of an archive. -/
inductive Call where
  | persist (key value : Bytes)
  | remove (key : Bytes)
  | clear
  | restore (generation : Nat)
deriving DecidableEq

namespace Call

/-- The operation of a call. -/
def perform : Call → Op StorageFault Mounted Unit
  | .persist key value => medium.persist key value
  | .remove key => do let _ ← medium.remove key
  | .clear => do let _ ← medium.clear
  | .restore generation => Archive.restore generation

/-- The call has nothing to change. -/
def Idles (s : Mounted) : Call → Prop
  | .remove key => ∃ name, Utf8.decode key = .ok name ∧ s.archive.entries.contains name = false
  | .clear => s.archive.entries.isEmpty
  | .persist .. | .restore _ => False

/-- The call has these entries to commit. -/
def Makes (s : Mounted) (entries : Json.RawObject) : Call → Prop
  | .persist key value => ∃ name text raw, Utf8.decode key = .ok name ∧
      Utf8.decode value = .ok text ∧ Json.RawText.ofChars? text.toList = some raw ∧
      entries = s.archive.entries.insert name raw
  | .remove key => ∃ name, Utf8.decode key = .ok name ∧ s.archive.entries.contains name ∧
      entries = s.archive.entries.erase name
  | .clear => ¬ s.archive.entries.isEmpty ∧ entries = .empty
  | .restore generation => ∃ bytes, s.disk.read (s.archive.files.data generation) = .ok bytes ∧
      FileSet.parseVerified bytes (s.archive.files.data generation)
        (s.archive.files.checksum generation) s.disk = .ok entries

/-- The arguments of the call are fit: keys and values are text, values are JSON, and the files of a
    generation that is to be restored are sound. -/
def Fit (s : Mounted) (c : Call) : Prop := c.Idles s ∨ ∃ entries, c.Makes s entries

/-- The call changes what is under a key, if it changes anything. -/
def Touches (key : Bytes) : Call → Prop
  | .persist other _ | .remove other => other = key
  | .clear | .restore _ => True

end Call

variable {s t : Journaled Mounted} {key value : Bytes}

/-! ### What a call does -/

theorem restore_of_sound {generation : Nat} {bytes : Bytes} {entries : Json.RawObject}
    (hread : s.state.disk.read (s.state.archive.files.data generation) = .ok bytes)
    (hparse : FileSet.parseVerified bytes (s.state.archive.files.data generation)
      (s.state.archive.files.checksum generation) s.state.disk = .ok entries) :
    restore generation s =
      (replace entries >>= fun _ => Op.report (.restored generation entries.size)) s := by
  rw [restore_eq, Op.bind_of_ok (Op.state_apply s)]
  change ((Op.look fun s' : Mounted => (s'.disk.read
    (s.state.archive.files.data generation)).mapError StorageFault.disk) >>= _) s = _
  rw [Op.bind_of_ok (Op.look_of_ok (by rw [hread]; rfl)), Op.bind_of_ok (Op.look_of_ok hparse)]

theorem restore_of_refused {generation : Nat} {bytes : Bytes} {fault : StorageFault}
    (hread : s.state.disk.read (s.state.archive.files.data generation) = .ok bytes)
    (hparse : FileSet.parseVerified bytes (s.state.archive.files.data generation)
      (s.state.archive.files.checksum generation) s.state.disk = .error fault) :
    restore generation s = .error fault s := by
  rw [restore, Op.bind_of_ok (Op.state_apply s)]
  change ((Op.look fun s' : Mounted => (s'.disk.read
    (s.state.archive.files.data generation)).mapError StorageFault.disk) >>= _) s = _
  rw [Op.bind_of_ok (Op.look_of_ok (by rw [hread]; rfl))]
  exact Op.bind_of_error (Op.look_of_error hparse)

/-- A restore of files that are not sound is refused. -/
theorem restore_of_unsound {generation : Nat}
    (h : ¬ ∃ entries, (Call.restore generation).Makes s.state entries) :
    ∃ fault, restore generation s = .error fault s := by
  cases hread : s.state.disk.read (s.state.archive.files.data generation) with
  | error fault =>
    refine ⟨.disk fault, ?_⟩
    rw [restore, Op.bind_of_ok (Op.state_apply s)]
    exact Op.bind_of_error (Op.look_of_error (by rw [hread]; rfl))
  | ok bytes =>
    cases hparse : FileSet.parseVerified bytes (s.state.archive.files.data generation)
      (s.state.archive.files.checksum generation) s.state.disk with
    | ok entries => exact absurd ⟨entries, bytes, hread, hparse⟩ h
    | error fault => exact ⟨fault, restore_of_refused hread hparse⟩

theorem persist_of_fit {name text : String} {raw : Json.RawText} (hname : Utf8.decode key = .ok name)
    (htext : Utf8.decode value = .ok text)
    (hraw : Json.RawText.ofChars? text.toList = some raw) :
    medium.persist key value s = replace (s.state.archive.entries.insert name raw) s := by
  rw [persist_eq, Op.bind_of_ok (keyText_of_ok hname), Op.bind_of_ok (valueText_of_ok htext hraw),
    Op.bind_of_ok (current_apply s)]

theorem remove_of_present {name : String} (hname : Utf8.decode key = .ok name)
    (hpresent : s.state.archive.entries.contains name) :
    medium.remove key s =
      (replace (s.state.archive.entries.erase name) >>= fun _ => pure true) s := by
  rw [remove_eq, Op.bind_of_ok (keyText_of_ok hname), Op.bind_of_ok (current_apply s), hpresent]
  rfl

theorem remove_of_absent {name : String} (hname : Utf8.decode key = .ok name)
    (habsent : s.state.archive.entries.contains name = false) :
    medium.remove key s = .ok false s := by
  rw [remove_eq, Op.bind_of_ok (keyText_of_ok hname), Op.bind_of_ok (current_apply s), habsent]
  rfl

theorem clear_of_isEmpty (h : s.state.archive.entries.isEmpty) : medium.clear s = .ok 0 s := by
  rw [clear_eq, Op.bind_of_ok (current_apply s), h]
  rfl

theorem clear_of_not_isEmpty (h : s.state.archive.entries.isEmpty = false) :
    medium.clear s =
      (replace .empty >>= fun _ => pure s.state.archive.entries.size) s := by
  rw [clear_eq, Op.bind_of_ok (current_apply s), h]
  rfl

namespace Call

variable {c : Call} {entries : Json.RawObject}

theorem perform_of_idles (h : c.Idles s.state) : c.perform s = .ok () s := by
  cases c with
  | persist key value => cases h
  | restore generation => cases h
  | remove key =>
    obtain ⟨name, hname, habsent⟩ := h
    rw [perform, Op.bind_of_ok (remove_of_absent hname habsent)]
    rfl
  | clear =>
    rw [perform, Op.bind_of_ok (clear_of_isEmpty h)]
    rfl

/-- A call that has entries to commit is their commit, and at most a report after it. -/
theorem perform_eq_of_makes (h : c.Makes s.state entries) :
    ∃ f : Unit → Op StorageFault Mounted Unit, c.perform s = (replace entries >>= f) s ∧
      ∀ r, ∃ t, f () r = .ok () t ∧ t.state = r.state := by
  cases c with
  | persist key value =>
    obtain ⟨name, text, raw, hname, htext, hraw, rfl⟩ := h
    refine ⟨pure, ?_, fun r => ⟨r, rfl, rfl⟩⟩
    rw [perform, persist_of_fit hname htext hraw, bind_pure]
  | remove key =>
    obtain ⟨name, hname, hpresent, rfl⟩ := h
    refine ⟨fun _ => pure (), ?_, fun r => ⟨r, rfl, rfl⟩⟩
    rw [perform, Op.bind_congr (remove_of_present hname hpresent), bind_assoc]
    simp only [pure_bind]
  | clear =>
    obtain ⟨hentries, rfl⟩ := h
    refine ⟨fun _ => pure (), ?_, fun r => ⟨r, rfl, rfl⟩⟩
    rw [perform, Op.bind_congr (clear_of_not_isEmpty (by simpa using hentries)), bind_assoc]
    simp only [pure_bind]
  | restore generation =>
    obtain ⟨bytes, hread, hparse⟩ := h
    exact ⟨fun _ => Op.report (.restored generation entries.size),
      restore_of_sound hread hparse, fun r => ⟨_, rfl, rfl⟩⟩

/-- A call of which the arguments are not fit is refused and changes nothing. -/
theorem perform_of_not_fit (h : ¬ c.Fit s.state) : ∃ fault, c.perform s = .error fault s := by
  have hmakes : ¬ ∃ entries, c.Makes s.state entries := fun hm => h (.inr hm)
  cases c with
  | persist key value =>
    cases hkey : Utf8.decode key with
    | error fault => exact ⟨.keyNotText fault, Op.bind_of_error (keyText_of_error hkey)⟩
    | ok name =>
      have hnot : ∀ text raw, Utf8.decode value = .ok text →
          Json.RawText.ofChars? text.toList ≠ some raw := by
        intro text raw htext hraw
        exact hmakes ⟨_, name, text, raw, hkey, htext, hraw, rfl⟩
      obtain ⟨fault, hfault⟩ := valueText_of_not (s := s) hnot
      refine ⟨fault, ?_⟩
      change (keyText key >>= _) s = _
      rw [Op.bind_of_ok (keyText_of_ok hkey), Op.bind_of_error hfault]
  | remove key =>
    cases hkey : Utf8.decode key with
    | error fault =>
      refine ⟨.keyNotText fault, Op.bind_of_error ?_⟩
      exact Op.bind_of_error (keyText_of_error hkey)
    | ok name =>
      cases hcontains : s.state.archive.entries.contains name with
      | true => exact absurd ⟨_, name, hkey, hcontains, rfl⟩ hmakes
      | false => exact absurd (.inl ⟨name, hkey, hcontains⟩) h
  | clear =>
    cases hempty : s.state.archive.entries.isEmpty with
    | true => exact absurd (.inl hempty) h
    | false => exact absurd ⟨_, by simp [hempty], rfl⟩ hmakes
  | restore generation => exact restore_of_unsound hmakes

/-- What a successful call has done: nothing, or it has committed what it makes. -/
theorem perform_cases {u : Unit} (h : c.perform s = .ok u t) :
    (c.Idles s.state ∧ t = s) ∨
      ∃ entries r, c.Makes s.state entries ∧ replace entries s = .ok () r ∧ t.state = r.state := by
  by_cases hidles : c.Idles s.state
  · rw [perform_of_idles hidles] at h
    cases h
    exact .inl ⟨hidles, rfl⟩
  by_cases hmakes : ∃ entries, c.Makes s.state entries
  · obtain ⟨entries, hentries⟩ := hmakes
    obtain ⟨f, heq, hf⟩ := perform_eq_of_makes hentries
    rw [heq] at h
    obtain ⟨_, r, hreplace, hrest⟩ := Op.bind_eq_ok_iff.1 h
    obtain ⟨t', hrest', hstate⟩ := hf r
    rw [hrest'] at hrest
    cases hrest
    exact .inr ⟨entries, r, hentries, hreplace, hstate⟩
  · have hfit : ¬ c.Fit s.state := by
      rintro (hidles' | hmakes')
      · exact hidles hidles'
      · exact hmakes hmakes'
    obtain ⟨fault, hfault⟩ := perform_of_not_fit hfit
    rw [hfault] at h
    cases h

end Call

/-! ### Runs -/

/-- What a call has come to. -/
abbrev Outcome := Call × Except StorageFault Unit

/-- Calls one after the other in which the file operations succeed: a call fails only if its
    arguments are not fit. -/
inductive Run : Journaled Mounted → List Outcome → Journaled Mounted → Prop where
  | nil {s : Journaled Mounted} : Run s [] s
  | done {s t u : Journaled Mounted} {c : Call} {trace : List Outcome} :
    c.perform s = .ok () t → Run t trace u → Run s ((c, .ok ()) :: trace) u
  | refused {s t u : Journaled Mounted} {c : Call} {fault : StorageFault} {trace : List Outcome} :
    ¬ c.Fit s.state → c.perform s = .error fault t → Run t trace u →
      Run s ((c, .error fault) :: trace) u

/-- What each successful call keeps, a run keeps. -/
theorem Run.induct {p : Journaled Mounted → Prop} {trace : List Outcome} (h : Run s trace t)
    (hs : p s) (hstep : ∀ {c : Call} {a b : Journaled Mounted}, (c, .ok ()) ∈ trace →
      p a → c.perform a = .ok () b → p b) : p t := by
  induction h with
  | nil => exact hs
  | done hcall _ ih =>
    refine ih (hstep List.mem_cons_self hs hcall) ?_
    intro c a b hmem
    exact hstep (List.mem_cons_of_mem _ hmem)
  | refused hfit hcall _ ih =>
    obtain ⟨fault, hsame⟩ := Call.perform_of_not_fit hfit
    rw [hsame] at hcall
    cases hcall
    refine ih hs ?_
    intro c a b hmem
    exact hstep (List.mem_cons_of_mem _ hmem)

theorem Run.append_inv {u : Journaled Mounted} {first second : List Outcome}
    (h : Run s (first ++ second) u) : ∃ t, Run s first t ∧ Run t second u := by
  induction first generalizing s with
  | nil => exact ⟨s, .nil, h⟩
  | cons outcome first ih =>
    cases h with
    | done hcall hrest =>
      obtain ⟨t, hfirst, hsecond⟩ := ih hrest
      exact ⟨t, .done hcall hfirst, hsecond⟩
    | refused hfit hcall hrest =>
      obtain ⟨t, hfirst, hsecond⟩ := ih hrest
      exact ⟨t, .refused hfit hcall hfirst, hsecond⟩

end TypedStore.Archive
