/-
  TypedStore/Proofs/Store/Refinement.lean
  =======================================
  **Stores on one medium are a map.**

  Any number of stores with the same limits, each with a policy and locks of its own, may share a
  medium. Whatever calls they get, and in whatever order, every call returns what the reference
  returns, if the medium keeps a map. One call is followed in `perform_simulates`, and a run call by
  call (`answers_eq`); the theorem for the media that there are is `refines_map`.
-/
import TypedStore.Proofs.Store.Entries

namespace TypedStore.Store

variable {σ ι : Type}

/-! ### Stores on one medium -/

/-- What a call of a store returns, and the state after it. -/
def Call.perform (store : Store σ) (s : Journaled (Session σ)) :
    Call → Answer × Journaled (Session σ)
  | .put key value _ => (.put ((store.put key value).outcome s), (store.put key value).after s)
  | .get key => (.get ((store.get key).outcome s), (store.get key).after s)
  | .contains key => (.contains ((store.contains key).outcome s), (store.contains key).after s)
  | .keys => (.keys (store.keys.outcome s), store.keys.after s)
  | .remove key => (.remove ((store.remove key).outcome s), (store.remove key).after s)
  | .resetAll => (.resetAll (store.resetAll.outcome s), store.resetAll.after s)

/-- A medium, and the locks of each of the stores on it. -/
structure Shared (ι σ : Type) where
  medium : σ
  locks : ι → KeyLocks

/-- What the calls of stores on one medium return, one after the other. -/
def answers [DecidableEq ι] (stores : ι → Store σ) :
    List (ι × Call) → Journaled (Shared ι σ) → List Answer
  | [], _ => []
  | (i, c) :: rest, s =>
    let (answer, t) := c.perform (stores i) ⟨⟨s.state.medium, s.state.locks i⟩, s.events⟩
    answer :: answers stores rest
      ⟨⟨t.state.medium, Function.update s.state.locks i t.state.locks⟩, t.events⟩

/-- The fault of the medium that an answer reports, if it does. -/
def Answer.fault? : Answer → Option StorageFault
  | .put (.error (.storage fault)) | .get (.error (.storage fault))
  | .contains (.error fault) | .keys (.error fault)
  | .remove (.error (.storage fault)) | .resetAll (.error fault) => some fault
  | _ => none

/-- The medium has failed in one of certain ways. -/
def Answer.FailsBy (mayFail : StorageFault → Prop) (answer : Answer) : Prop :=
  ∃ fault, answer.fault? = some fault ∧ mayFail fault

/-! ### Following the reference -/

section Simulation

variable {rep : σ → Lookup → Prop} {mayFail : StorageFault → Prop} {store : Store σ}
  {m : Reference}

/-- An operation that answers something returns it, unless the medium has failed. -/
theorem returns_of_answers {ε α : Type} {op : Op ε (Session σ) α} {opMayFail : ε → Prop}
    {s : Journaled (Session σ)} {result : Except ε α} {post : Session σ → Prop}
    (answer : Except ε α → Answer) (h : op.Answers opMayFail s result post)
    (hfails : ∀ fault, opMayFail fault → (answer (.error fault)).FailsBy mayFail) :
    (answer (op.outcome s)).FailsBy mayFail ∨
      answer (op.outcome s) = answer result ∧ post (op.after s).state := by
  rcases h.outcome with ⟨fault, houtcome, hfault⟩ | ⟨houtcome, hafter⟩
  · left
    rw [houtcome]
    exact hfails fault hfault
  · right
    exact ⟨congrArg answer houtcome, hafter⟩

/-- One call has the result that it has for the reference, and the medium keeps the map that the
    reference then is. -/
theorem perform_simulates {s : Journaled (Session σ)} (h : store.medium.IsMap rep mayFail)
    (hrep : rep s.state.medium m.look) (hsound : m.Sound store.limits) (c : Call) :
    (c.perform store s).1.FailsBy mayFail ∨
      (c.perform store s).1 = (m.step store.limits store.policy c).1 ∧
        rep (c.perform store s).2.state.medium
          (Reference.look (m.step store.limits store.policy c).2) := by
  cases c with
  | put name value hdistinct =>
    have hanswers := put_answers_of_checked (putChecked_answers h hrep name hdistinct rfl)
    apply returns_of_answers Answer.put hanswers
    intro fault hfault
    cases fault with
    | storage fault => exact ⟨fault, rfl, hfault⟩
    | _ => exact hfault.elim
  | get name =>
    apply returns_of_answers Answer.get (get_answers h hrep hsound name)
    intro fault hfault
    cases fault with
    | storage fault => exact ⟨fault, rfl, hfault⟩
    | _ => exact hfault.elim
  | contains name =>
    apply returns_of_answers Answer.contains (contains_answers h hrep hsound name)
    intro fault hfault
    exact ⟨fault, rfl, hfault⟩
  | keys =>
    apply returns_of_answers Answer.keys (keys_answers h hrep)
    intro fault hfault
    exact ⟨fault, rfl, hfault⟩
  | remove name =>
    apply returns_of_answers Answer.remove (remove_answers h hrep hsound name)
    intro fault hfault
    cases fault with
    | storage fault => exact ⟨fault, rfl, hfault⟩
    | _ => exact hfault.elim
  | resetAll =>
    apply returns_of_answers Answer.resetAll (resetAll_answers h hrep)
    intro fault hfault
    exact ⟨fault, rfl, hfault⟩

/-- As long as no call finds the medium failing, all of them return what the reference returns. -/
theorem answers_eq [DecidableEq ι] {stores : ι → Store σ} {limits : Limits}
    (h : ∀ i, (stores i).medium.IsMap rep mayFail) (hlimits : ∀ i, (stores i).limits = limits)
    {calls : List (ι × Call)} {s : Journaled (Shared ι σ)} (hrep : rep s.state.medium m.look)
    (hsound : m.Sound limits)
    (hfails : ∀ answer ∈ answers stores calls s, ¬ answer.FailsBy mayFail) :
    answers stores calls s = Reference.answers limits (fun i => (stores i).policy) calls m := by
  induction calls generalizing s m with
  | nil => rfl
  | cons call rest ih =>
    obtain ⟨i, c⟩ := call
    have hsound' : m.Sound (stores i).limits := (hlimits i).symm ▸ hsound
    rcases perform_simulates (s := ⟨⟨s.state.medium, s.state.locks i⟩, s.events⟩) (h i) hrep
      hsound' c with hfail | ⟨hanswer, hafter⟩
    · exact absurd hfail (hfails _ List.mem_cons_self)
    · rw [hlimits i] at hanswer hafter
      refine congrArg₂ List.cons hanswer (ih hafter (hsound.step (stores i).policy c) ?_)
      intro answer hmem
      exact hfails answer (List.mem_cons_of_mem _ hmem)

end Simulation

/-! ### The media that there are -/

/-- Stores on one medium with the same limits. -/
def On (medium : Medium σ) (limits : Limits) (stores : ι → Store σ) : Prop :=
  ∀ i, (stores i).medium = medium ∧ (stores i).limits = limits

theorem On.answers_eq [DecidableEq ι] {medium : Medium σ} {limits : Limits} {stores : ι → Store σ}
    {rep : σ → Lookup → Prop} {mayFail : StorageFault → Prop} (h : On medium limits stores)
    (hmap : medium.IsMap rep mayFail) {calls : List (ι × Call)} {s : Journaled (Shared ι σ)}
    (hempty : rep s.state.medium fun _ => none)
    (hfails : ∀ answer ∈ answers stores calls s, ¬ answer.FailsBy mayFail) :
    answers stores calls s =
      Reference.answers limits (fun i => (stores i).policy) calls .empty := by
  have hmaps : ∀ i, (stores i).medium.IsMap rep mayFail := by
    intro i
    rw [(h i).1]
    exact hmap
  have hrep : rep s.state.medium (Reference.look .empty) := by
    rw [Reference.look_empty]
    exact hempty
  exact Store.answers_eq hmaps (fun i => (h i).2) hrep (Reference.sound_empty limits) hfails

/-- Stores that share a medium which is empty at first return, call by call, what a map from keys to
    values returns: on the medium in memory; on an archive, as long as no file operation fails; and
    on any medium of which the four required operations keep a map, in whatever order it lists its
    keys. The keys of the map are listed in the ascending order of their bytes. -/
theorem refines_map [DecidableEq ι] (limits : Limits) (locks : ι → KeyLocks) (events : List Event)
    (calls : List (ι × Call)) :
    (∀ stores : ι → Store Memory, On Memory.medium limits stores →
      answers stores calls ⟨⟨.empty, locks⟩, events⟩ =
        Reference.answers limits (fun i => (stores i).policy) calls .empty) ∧
    (∀ (stores : ι → Store Mounted) (s : Mounted), On Archive.medium limits stores →
      s.archive.entries = .empty →
      (∀ answer ∈ answers stores calls ⟨⟨s, locks⟩, events⟩,
        ¬ answer.FailsBy FileSet.IsDiskFault) →
      answers stores calls ⟨⟨s, locks⟩, events⟩ =
        Reference.answers limits (fun i => (stores i).policy) calls .empty) ∧
    (∀ (σ : Type) (persist : Bytes → Bytes → Op StorageFault σ Unit)
      (retrieve : Bytes → Op StorageFault σ (Option Bytes)) (remove : Bytes → Op StorageFault σ Bool)
      (keys : Op StorageFault σ (List Bytes)) (rep : σ → Lookup → Prop) (stores : ι → Store σ)
      (s : σ), Medium.IsRequiredMap persist retrieve remove keys rep →
      On (.ofRequired persist retrieve remove keys) limits stores → rep s (fun _ => none) →
      answers stores calls ⟨⟨s, locks⟩, events⟩ =
        Reference.answers limits (fun i => (stores i).policy) calls .empty) ∧
    ∀ (policy : ι → Uniqueness) (listed : List String),
      .keys (.ok listed) ∈ Reference.answers limits policy calls .empty →
        listed.Pairwise fun a b => Utf8.encode a < Utf8.encode b := by
  have hnever : ∀ answer : Answer, ¬ answer.FailsBy fun _ => False := by
    rintro answer ⟨fault, -, hfalse⟩
    exact hfalse
  refine ⟨?_, ?_, ?_, ?_⟩
  · intro stores hon
    exact hon.answers_eq (Medium.memory_isMap fun _ => False) rfl fun answer _ => hnever answer
  · intro stores s hon hempty hfails
    refine hon.answers_eq Archive.isMap ?_ hfails
    rw [hempty, Lookup.ofMap_empty]
  · intro σ persist retrieve remove keys rep stores s hmap hon hempty
    exact hon.answers_eq (Medium.ofRequired_isMap hmap fun _ => False) hempty
      fun answer _ => hnever answer
  · intro policy listed hmem
    exact Reference.ascending_of_mem_answers hmem

/-- Two stores, of which only one overwrites, on an archive, and on a medium that lists its keys the
    other way round. -/
theorem refines_map_two :
    let stores {σ : Type} (medium : Medium σ) : Bool → Store σ := fun overwrites =>
      ⟨medium, none, if overwrites then .overwrite else .reject, {}, .empty⟩
    let s : Mounted := ⟨Disk.empty.set ["d"] .directory, ⟨["d"], 0⟩, 3, .empty, none⟩
    let calls : List (Bool × Call) := [(false, .put "b" (.i32 1) trivial),
      (false, .put "b" .null trivial), (true, .put "a" .null trivial), (true, .get "b"),
      (false, .keys), (true, .resetAll)]
    let returned : List Answer := [.put (.ok ()), .put (.error (.duplicate "b")), .put (.ok ()),
      .get (.ok (.i32 1)), .keys (.ok ["a", "b"]), .resetAll (.ok 2)]
    (On Archive.medium {} (stores Archive.medium) ∧ s.archive.entries = .empty ∧
      (∀ answer ∈ answers (stores Archive.medium) calls ⟨⟨s, fun _ => .empty⟩, []⟩,
        ¬ answer.FailsBy FileSet.IsDiskFault) ∧
      On Failing.medium {} (stores Failing.medium)) ∧
    answers (stores Archive.medium) calls ⟨⟨s, fun _ => .empty⟩, []⟩ = returned ∧
    answers (stores Failing.medium) calls ⟨⟨Failing.empty, fun _ => .empty⟩, []⟩ = returned := by
  intro stores s calls returned
  have hon : On Archive.medium {} (stores Archive.medium) := fun _ => ⟨rfl, rfl⟩
  have hon' : On Failing.medium {} (stores Failing.medium) := fun _ => ⟨rfl, rfl⟩
  have hfaults : ∀ fault ∈ (answers (stores Archive.medium) calls
      ⟨⟨s, fun _ => .empty⟩, []⟩).map Answer.fault?, fault = none := by
    decide +kernel
  have hfails : ∀ answer ∈ answers (stores Archive.medium) calls ⟨⟨s, fun _ => .empty⟩, []⟩,
      ¬ answer.FailsBy FileSet.IsDiskFault := by
    rintro answer hmem ⟨fault, hfault, -⟩
    have hnone := hfaults _ (List.mem_map_of_mem hmem)
    rw [hfault] at hnone
    cases hnone
  obtain ⟨-, harchive, hrequired, -⟩ := refines_map {} (fun _ : Bool => .empty) [] calls
  exact ⟨⟨hon, rfl, hfails, hon'⟩, harchive _ s hon rfl hfails,
    hrequired _ _ _ _ _ _ _ _ Medium.failing_isRequiredMap hon' ⟨rfl, rfl⟩⟩

end TypedStore.Store
