/-
  TypedStore/Proofs/Store/Reference.lean
  ======================================
  **What the calls of a store mean.**

  A call means something for a map from keys to values, whatever medium there is: it has a result
  and leaves a map (`Reference.step`). The map only ever has keys and values that can be stored
  (`Reference.Sound`), and lists its keys in the order of their bytes (`Reference.keys_ascending`).
-/
import TypedStore.Proofs.Codec.Utf8
import TypedStore.Proofs.Results
import TypedStore.Proofs.SortedMap
import TypedStore.Store.Basic

namespace TypedStore

/-- The entries of a map are in the ascending order of the bytes of their keys. -/
theorem SortedMap.pairwise_encode_lt {α : Type} (m : SortedMap String α) :
    m.toList.Pairwise fun a b => Utf8.encode a.1 < Utf8.encode b.1 := by
  refine m.ascending.imp fun {a b} hlt => Utf8.encode_lt_encode ?_
  change compareOfLessAndEq a.1 b.1 = .lt at hlt
  unfold compareOfLessAndEq at hlt
  split at hlt
  · assumption
  · split at hlt <;> cases hlt

namespace Store

/-! ### Calls and answers -/

/-- A call of a store. Values have distinct member names. -/
inductive Call where
  | put (key : String) (value : Value) (distinct : value.Distinct)
  | get (key : String)
  | contains (key : String)
  | keys
  | remove (key : String)
  | resetAll

/-- What a call returns. -/
inductive Answer where
  | put (result : Except PutFault Unit)
  | get (result : Except GetFault Value)
  | contains (result : Except StorageFault Bool)
  | keys (result : Except StorageFault (List String))
  | remove (result : Except RemoveFault Unit)
  | resetAll (result : Except StorageFault Nat)

/-! ### The map -/

/-- A map from keys to values. -/
abbrev Reference := SortedMap String Value

/-- Why a value may not be stored under a key, whatever else is stored. -/
def accept (limits : Limits) (key : String) (value : Value) : Except PutFault Unit := do
  (checkKey limits key).mapError .key
  value.checkDomain.mapError .value
  (limits.checkValueLength value.length).mapError fun e => .tooLong e.actual e.max

namespace Reference

variable {ι : Type}

/-- What becomes of the map when a value is to be stored. -/
def put (limits : Limits) (policy : Uniqueness) (m : Reference) (key : String) (value : Value) :
    Except PutFault Unit × Reference :=
  match accept limits key value with
  | .error fault => (.error fault, m)
  | .ok () =>
    if policy = .reject ∧ m.contains key then (.error (.duplicate key), m)
    else (.ok (), m.insert key value)

/-- What a call returns, and the map after it. -/
def step (limits : Limits) (policy : Uniqueness) (m : Reference) : Call → Answer × Reference
  | .put key value _ =>
    let (result, next) := put limits policy m key value
    (.put result, next)
  | .get key => (.get ((m.get? key).elim (.error (.notFound key)) .ok), m)
  | .contains key => (.contains (.ok (m.contains key)), m)
  | .keys => (.keys (.ok m.keys), m)
  | .remove key =>
    (.remove (if m.contains key then .ok () else .error (.notFound key)), m.erase key)
  | .resetAll => (.resetAll (.ok m.size), .empty)

/-- What calls under the policies of several stores return, one after the other. -/
def answers (limits : Limits) (policy : ι → Uniqueness) : List (ι × Call) → Reference → List Answer
  | [], _ => []
  | (i, c) :: rest, m =>
    let (answer, next) := step limits (policy i) m c
    answer :: answers limits policy rest next

/-- Every key and every value can be stored. -/
structure Sound (limits : Limits) (m : Reference) : Prop where
  admissible {name : String} {value : Value} (h : m.get? name = some value) :
    checkKey limits name = .ok ()
  distinct {name : String} {value : Value} (h : m.get? name = some value) : value.Distinct
  domain {name : String} {value : Value} (h : m.get? name = some value) :
    value.checkDomain = .ok ()

/-! ### What may be stored -/

variable {limits : Limits} {m : Reference} {name : String} {value : Value}

theorem accept_eq_ok (h : accept limits name value = .ok ()) :
    checkKey limits name = .ok () ∧ value.checkDomain = .ok () ∧
      limits.checkValueLength value.length = .ok () := by
  simp only [accept, Except.bind_eq_ok_iff, Except.mapError_eq_ok_iff] at h
  obtain ⟨_, hkey, _, hdomain, hlength⟩ := h
  exact ⟨hkey, hdomain, hlength⟩

theorem sound_empty (limits : Limits) : Sound limits .empty := by
  constructor
  · intro _ _ h
    cases h
  · intro _ _ h
    cases h
  · intro _ _ h
    cases h

theorem Sound.insert (h : m.Sound limits) (haccept : accept limits name value = .ok ())
    (hdistinct : value.Distinct) : Sound limits (m.insert name value) := by
  obtain ⟨hkey, hdomain, -⟩ := accept_eq_ok haccept
  have hcases : ∀ {other : String} {found : Value}, (m.insert name value).get? other = some found →
      (other = name ∧ found = value) ∨ m.get? other = some found := by
    intro other found hfound
    rw [SortedMap.get?_insert] at hfound
    split at hfound
    · next heq => exact .inl ⟨heq, (Option.some.inj hfound).symm⟩
    · exact .inr hfound
  constructor
  · intro other found hfound
    rcases hcases hfound with ⟨rfl, rfl⟩ | hold
    · exact hkey
    · exact h.admissible hold
  · intro other found hfound
    rcases hcases hfound with ⟨rfl, rfl⟩ | hold
    · exact hdistinct
    · exact h.distinct hold
  · intro other found hfound
    rcases hcases hfound with ⟨rfl, rfl⟩ | hold
    · exact hdomain
    · exact h.domain hold

theorem Sound.erase (h : m.Sound limits) (name : String) : Sound limits (m.erase name) := by
  have hold : ∀ {other : String} {found : Value}, (m.erase name).get? other = some found →
      m.get? other = some found := by
    intro other found hfound
    rw [SortedMap.get?_erase] at hfound
    split at hfound
    · cases hfound
    · exact hfound
  constructor
  · intro other found hfound
    exact h.admissible (hold hfound)
  · intro other found hfound
    exact h.distinct (hold hfound)
  · intro other found hfound
    exact h.domain (hold hfound)

/-- Whatever is called, the map has only what can be stored. -/
theorem Sound.step (h : m.Sound limits) (policy : Uniqueness) (c : Call) :
    Sound limits (m.step limits policy c).2 := by
  cases c with
  | put name value hdistinct =>
    change Sound limits (m.put limits policy name value).2
    unfold put
    split
    · exact h
    · next haccept =>
      split
      · exact h
      · exact h.insert haccept hdistinct
  | get name => exact h
  | contains name => exact h
  | keys => exact h
  | remove name => exact h.erase name
  | resetAll => exact sound_empty limits

/-- A key that could not have been stored has no value. -/
theorem Sound.get?_of_not_admissible (h : m.Sound limits) (hname : ¬ isAdmissible limits name) :
    m.get? name = none := by
  cases hget : m.get? name with
  | none => rfl
  | some value =>
    refine absurd ?_ hname
    rw [isAdmissible, h.admissible hget]
    rfl

/-! ### The listing of keys -/

/-- The keys of a map are listed in the ascending order of their bytes. -/
theorem keys_ascending (m : Reference) :
    m.keys.Pairwise fun a b => Utf8.encode a < Utf8.encode b :=
  List.pairwise_map.2 m.pairwise_encode_lt

theorem ascending_of_mem_answers {policy : ι → Uniqueness} {calls : List (ι × Call)}
    {listed : List String} (hmem : .keys (.ok listed) ∈ answers limits policy calls m) :
    listed.Pairwise fun a b => Utf8.encode a < Utf8.encode b := by
  induction calls generalizing m with
  | nil => cases hmem
  | cons call rest ih =>
    obtain ⟨i, c⟩ := call
    rcases List.mem_cons.1 hmem with heq | hrest
    · cases c with
      | keys =>
        have hkeys : m.keys = listed := Except.ok.inj (Answer.keys.inj heq.symm)
        rw [← hkeys]
        exact m.keys_ascending
      | _ => cases heq
    · exact ih hrest

end Reference

end Store

end TypedStore
