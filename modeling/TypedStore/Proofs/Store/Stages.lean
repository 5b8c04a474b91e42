/-
  TypedStore/Proofs/Store/Stages.lean
  ===================================
  **The stage that an attempt to store a value had completed.**

  A stage is completed when all checks up to it have let the value pass (`PutStage.checks`); which
  stage was completed last is so determined by the checks, without the fault. The fault tells a stage
  by its kind. The two agree, except that a medium that cannot tell whether a key is there fails with
  the same kind of fault as one that cannot write: such an attempt is said to have completed
  `uniquenessChecked`, while it was this that failed (`stage_is_last_completed_iff`).
-/
import TypedStore.Proofs.Store.Storing

namespace TypedStore

/-- The checks that have let a value pass if the attempt to store it has completed the stage. -/
def PutStage.checks : PutStage → List Store.PutCheck
  | .received => []
  | .keyValidated => [.characters, .keyLength]
  | .valueEncoded => [.characters, .keyLength, .depth, .floats]
  | .sizeChecked => Store.PutCheck.ofPair
  | .uniquenessChecked => Store.PutCheck.ofPair ++ [.existence]
  | .persisted => Store.PutCheck.all

namespace Store

/-- The stage that has been completed last if this is the first check that refuses. -/
def PutCheck.lastStage : PutCheck → PutStage
  | .characters | .keyLength => .received
  | .depth | .floats => .keyValidated
  | .valueLength => .valueEncoded
  | .existence => .sizeChecked
  | .write => .uniquenessChecked

def Completes (refuses : PutCheck → PutFault → Prop) (stage : PutStage) : Prop :=
  ∀ check ∈ stage.checks, ∀ fault, ¬ refuses check fault

/-- A stage is completed, and every other one that is comes before it. -/
structure CompletesLast (refuses : PutCheck → PutFault → Prop) (stage : PutStage) : Prop where
  completes : Completes refuses stage
  last {other : PutStage} : Completes refuses other → other.checks <+: stage.checks

section Order

variable {refuses : PutCheck → PutFault → Prop} {check : PutCheck} {fault : PutFault}

/-- The checks before the first one that refuses are those of the last stage, at least. -/
theorem completesLast_lastStage {before after : List PutCheck}
    (hsplit : PutCheck.all = before ++ check :: after)
    (hbefore : ∀ earlier ∈ before, ∀ other, ¬ refuses earlier other) (h : refuses check fault) :
    CompletesLast refuses check.lastStage := by
  have hall : PutCheck.all.Nodup := by decide
  have hstage : ∀ c ∈ check.lastStage.checks, c ∈ PutCheck.all.takeWhile (· ≠ check) := by
    cases check <;> decide
  have htake : PutCheck.all.takeWhile (· ≠ check) = before := by
    rw [hsplit] at hall ⊢
    rw [List.takeWhile_append_of_pos, List.takeWhile_cons_of_neg (by simp), List.append_nil]
    intro c hc
    have hne : c ≠ check := by
      rintro rfl
      exact (List.nodup_append.1 hall).2.2 c hc c List.mem_cons_self rfl
    simpa using hne
  refine ⟨fun c hc => hbefore c (htake ▸ hstage c hc), ?_⟩
  intro other hother
  by_cases hmem : check ∈ other.checks
  · exact absurd h (hother check hmem fault)
  · revert hmem
    cases check <;> cases other <;> decide

end Order

variable {σ : Type} {store : Store σ} {key : String} {value : Value} {fault : PutFault}
  {s : Journaled σ}

/-- The key and the value are in order, and the medium cannot tell whether the key is there although
    it has to be new. -/
def LookupFails (store : Store σ) (key : String) (value : Value) (s : Journaled σ) : Prop :=
  Completes (store.Refuses key value s) .sizeChecked ∧ store.policy = .reject ∧
    ∃ reason, (store.medium.contains (Utf8.encode key)).outcome s = .error reason

/-- A fault tells the last stage, unless the medium has been asked and did not answer. -/
theorem Refuses.stage_eq {check : PutCheck} (h : store.Refuses key value s check fault) :
    fault.stage = check.lastStage ∨
      check = .existence ∧ fault.stage = .uniquenessChecked ∧ store.policy = .reject ∧
        ∃ reason, (store.medium.contains (Utf8.encode key)).outcome s = .error reason := by
  cases h with
  | unanswered hreject hfault => exact .inr ⟨rfl, rfl, hreject, _, hfault⟩
  | _ => exact .inl rfl

theorem LookupFails.not_completes (h : store.LookupFails key value s) :
    ¬ Completes (store.Refuses key value s) .uniquenessChecked := by
  obtain ⟨-, hreject, reason, hreason⟩ := h
  intro hcompletes
  exact hcompletes .existence (by decide) _ (.unanswered hreject hreason)

/-- Where the lookup fails, the fault tells another stage than the last one. -/
theorem LookupFails.not_stage_eq {check : PutCheck} (h : store.LookupFails key value s)
    (hrefuses : store.Refuses key value s check fault)
    (hlast : CompletesLast (store.Refuses key value s) check.lastStage) :
    fault.stage ≠ check.lastStage := by
  have hcheck : check = .existence ∨ check = .write := by
    have hprefix := hlast.last h.1
    revert hprefix
    cases check <;> decide
  rcases hcheck with rfl | rfl
  · obtain ⟨-, hreject, reason, hreason⟩ := h
    rw [hrefuses.unique (.unanswered hreject hreason)]
    exact nofun
  · exact absurd hlast.completes h.not_completes

/-- The stage that the fault tells is the one that was completed last, unless the medium could not tell
    whether the key is there; then the fault tells the stage after it. -/
theorem stage_is_last_completed_iff (store : Store σ) (key : String) (value : Value)
    (s : Journaled (Session σ)) (h : (store.put key value).outcome s = .error fault) :
    (CompletesLast (store.Refuses key value (underneath s)) fault.stage ↔
      ¬ store.LookupFails key value (underneath s)) ∧
    (store.LookupFails key value (underneath s) → fault.stage = .uniquenessChecked ∧
      CompletesLast (store.Refuses key value (underneath s)) .sizeChecked) := by
  have hsettles := store.settles_put key value s
  rw [h] at hsettles
  obtain ⟨before, check, after, hsplit, hbefore, hrefuses⟩ := FirstRefusal.exists_split hsettles
  have hlast := completesLast_lastStage hsplit hbefore hrefuses
  rcases hrefuses.stage_eq with hstage | ⟨rfl, hstage, hreject, reason, hreason⟩
  · have hnot : ¬ store.LookupFails key value (underneath s) := fun hfails =>
      hfails.not_stage_eq hrefuses hlast hstage
    rw [hstage]
    exact ⟨iff_of_true hlast hnot, fun hfails => absurd hfails hnot⟩
  · have hfails : store.LookupFails key value (underneath s) :=
      ⟨hlast.completes, hreject, reason, hreason⟩
    refine ⟨iff_of_false ?_ (not_not_intro hfails), fun _ => ⟨hstage, hlast⟩⟩
    rw [hstage]
    exact fun hcompletes => hfails.not_completes hcompletes.completes

/-- A value that is too long, in a medium that cannot be asked for keys; the attempt has completed the
    encoding of the value. -/
theorem stage_is_last_completed_iff_too_long :
    let s : Journaled (Session Failing) := ⟨⟨⟨.empty, ["retrieve"]⟩, .empty⟩, []⟩
    let store : Store Failing := { Store.ephemeral Failing.medium with limits := ⟨4, 4⟩ }
    let value : Value := .str "too long"
    (store.put "k" value).outcome s = .error (.tooLong 8 4) ∧
      (CompletesLast (store.Refuses "k" value (underneath s)) .valueEncoded ↔
        ¬ store.LookupFails "k" value (underneath s)) := by
  intro s store value
  have herror : (store.put "k" value).outcome s = .error (.tooLong 8 4) := by decide +kernel
  exact ⟨herror, (stage_is_last_completed_iff store "k" value s herror).1⟩

/-- A key that has to be new is given a value in a medium that cannot be asked for keys. The fault says
    that `uniquenessChecked` has been completed, which is what has failed. -/
theorem stage_of_failed_lookup :
    let s : Journaled (Session Failing) := ⟨⟨⟨.empty, ["retrieve"]⟩, .empty⟩, []⟩
    let store : Store Failing := .ephemeral Failing.medium
    let fault : PutFault := .storage (.unavailable "retrieve")
    (store.put "k" .null).outcome s = .error fault ∧ fault.stage = .uniquenessChecked ∧
      store.Refuses "k" .null (underneath s) .existence fault ∧
      ¬ CompletesLast (store.Refuses "k" .null (underneath s)) fault.stage := by
  intro s store fault
  have hlookup : (store.medium.contains (Utf8.encode "k")).outcome (underneath s) =
      .error (.unavailable "retrieve") := by decide +kernel
  have hrefuses : store.Refuses "k" .null (underneath s) .existence fault := .unanswered rfl hlookup
  exact ⟨by decide +kernel, rfl, hrefuses,
    fun hlast => hlast.completes .existence (by decide) fault hrefuses⟩

end Store

end TypedStore
