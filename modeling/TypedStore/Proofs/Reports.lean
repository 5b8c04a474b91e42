/-
  TypedStore/Proofs/Reports.lean
  ==============================
  **What operations report.**

  An operation adds to the journal what it reports, and does so also when it fails in the end. How it
  ends (`Ends`) is said of its result, of the state after it and of what it has reported in between.
  An operation that is put together ends as its parts do, one after the other; each lemma is for one
  way of putting operations together.
-/
import TypedStore.Proofs.Operations

namespace TypedStore.Op

variable {ε ε' σ τ α β : Type} {s : Journaled σ}

/-- A result that is reached from these events by reporting more of them, and that is a success like
    that or a failure like that. -/
def EndsFrom (events : List Event) (result : EStateM.Result ε (Journaled σ) α)
    (ok : α → σ → List Event → Prop) (fail : ε → σ → List Event → Prop) : Prop :=
  match result with
  | .ok a t => ∃ emitted, t.events = events ++ emitted ∧ ok a t.state emitted
  | .error e t => ∃ emitted, t.events = events ++ emitted ∧ fail e t.state emitted

/-- The operation reports some events, and then it has succeeded like that or failed like that. -/
def Ends (op : Op ε σ α) (s : Journaled σ) (ok : α → σ → List Event → Prop)
    (fail : ε → σ → List Event → Prop) : Prop := EndsFrom s.events (op s) ok fail

section Ends

variable {ok : α → σ → List Event → Prop} {fail : ε → σ → List Event → Prop}

theorem ends_of_ok {op : Op ε σ α} {a : α} (hop : op s = .ok a s) (h : ok a s.state []) :
    op.Ends s ok fail := by
  rw [Ends, hop]
  exact ⟨[], (List.append_nil _).symm, h⟩

theorem ends_of_error {op : Op ε σ α} {e : ε} (hop : op s = .error e s) (h : fail e s.state []) :
    op.Ends s ok fail := by
  rw [Ends, hop]
  exact ⟨[], (List.append_nil _).symm, h⟩

theorem ends_pure {a : α} (h : ok a s.state []) : (pure a : Op ε σ α).Ends s ok fail :=
  ends_of_ok rfl h

theorem ends_throw {e : ε} (h : fail e s.state []) : (throw e : Op ε σ α).Ends s ok fail :=
  ends_of_error rfl h

theorem ends_report {event : Event} {ok : Unit → σ → List Event → Prop}
    (h : ok () s.state [event]) : (report event : Op ε σ Unit).Ends s ok fail :=
  ⟨[event], rfl, h⟩

theorem ends_look {f : σ → Except ε α} (hok : ∀ a, f s.state = .ok a → ok a s.state [])
    (hfail : ∀ e, f s.state = .error e → fail e s.state []) : (look f).Ends s ok fail := by
  cases h : f s.state with
  | ok a => exact ends_of_ok (look_of_ok h) (hok a h)
  | error e => exact ends_of_error (look_of_error h) (hfail e h)

/-- What ends at once adds nothing to what has been reported before. -/
theorem ends_pure_append {a : α} {before : List Event} (h : ok a s.state before) :
    (pure a : Op ε σ α).Ends s (fun a t emitted => ok a t (before ++ emitted)) fail :=
  ends_pure ((List.append_nil before).symm ▸ h)

theorem ends_throw_append {e : ε} {before : List Event} (h : fail e s.state before) :
    (throw e : Op ε σ α).Ends s ok fun e t emitted => fail e t (before ++ emitted) :=
  ends_throw ((List.append_nil before).symm ▸ h)

/-- How an operation ends depends on the outcome alone. -/
theorem ends_congr {x y : Op ε σ α} (h : x s = y s) : x.Ends s ok fail ↔ y.Ends s ok fail := by
  rw [Ends, Ends, h]

theorem Ends.mono {op : Op ε σ α} {ok' : α → σ → List Event → Prop}
    {fail' : ε → σ → List Event → Prop} (h : op.Ends s ok fail)
    (hok : ∀ a t emitted, ok a t emitted → ok' a t emitted)
    (hfail : ∀ e t emitted, fail e t emitted → fail' e t emitted) : op.Ends s ok' fail' := by
  unfold Ends EndsFrom at h ⊢
  split at h
  · obtain ⟨emitted, hevents, ha⟩ := h
    exact ⟨emitted, hevents, hok _ _ _ ha⟩
  · obtain ⟨emitted, hevents, he⟩ := h
    exact ⟨emitted, hevents, hfail _ _ _ he⟩

/-- What is reported after something else has been. -/
theorem EndsFrom.prepend {events before : List Event} {result : EStateM.Result ε (Journaled σ) α}
    (h : EndsFrom (events ++ before) result (fun a t emitted => ok a t (before ++ emitted))
      fun e t emitted => fail e t (before ++ emitted)) : EndsFrom events result ok fail := by
  unfold EndsFrom at h ⊢
  split at h
  · obtain ⟨emitted, hevents, ha⟩ := h
    exact ⟨before ++ emitted, by rw [hevents, List.append_assoc], ha⟩
  · obtain ⟨emitted, hevents, he⟩ := h
    exact ⟨before ++ emitted, by rw [hevents, List.append_assoc], he⟩

theorem Ends.bind {x : Op ε σ α} {f : α → Op ε σ β} {between : α → σ → List Event → Prop}
    {ok : β → σ → List Event → Prop} (hx : x.Ends s between fail)
    (hf : ∀ a state before, between a state before →
      (f a).Ends ⟨state, s.events ++ before⟩ (fun b t emitted => ok b t (before ++ emitted))
        fun e t emitted => fail e t (before ++ emitted)) :
    (x >>= f).Ends s ok fail := by
  unfold Ends EndsFrom at hx
  rw [Ends]
  cases hop : x s with
  | ok a t =>
    rw [hop] at hx
    obtain ⟨before, hevents, ha⟩ := hx
    obtain ⟨state, events⟩ := t
    dsimp only at hevents ha
    subst hevents
    rw [bind_of_ok hop]
    exact (hf a state before ha).prepend
  | error e t =>
    rw [hop] at hx
    rw [bind_of_error hop]
    exact hx

/-- Where a failure is handled, what follows has to be looked at for it too. -/
theorem Ends.attempt_bind {x : Op ε σ α} {f : Except ε α → Op ε' σ β}
    {between : α → σ → List Event → Prop} {failed : ε → σ → List Event → Prop}
    {ok : β → σ → List Event → Prop} {fail : ε' → σ → List Event → Prop}
    (hx : x.Ends s between failed)
    (hok : ∀ a state before, between a state before →
      (f (.ok a)).Ends ⟨state, s.events ++ before⟩ (fun b t emitted => ok b t (before ++ emitted))
        fun e t emitted => fail e t (before ++ emitted))
    (hfail : ∀ e state before, failed e state before →
      (f (.error e)).Ends ⟨state, s.events ++ before⟩
        (fun b t emitted => ok b t (before ++ emitted))
        fun e t emitted => fail e t (before ++ emitted)) :
    (x.attempt >>= f).Ends s ok fail := by
  unfold Ends EndsFrom at hx
  rw [Ends]
  cases hop : x s with
  | ok a t =>
    rw [hop] at hx
    obtain ⟨before, hevents, ha⟩ := hx
    obtain ⟨state, events⟩ := t
    dsimp only at hevents ha
    subst hevents
    rw [bind_of_ok (attempt_of_ok hop)]
    exact (hok a state before ha).prepend
  | error e t =>
    rw [hop] at hx
    obtain ⟨before, hevents, he⟩ := hx
    obtain ⟨state, events⟩ := t
    dsimp only at hevents he
    subst hevents
    rw [bind_of_ok (attempt_of_error hop)]
    exact (hfail e state before he).prepend

/-- A report comes before what is reported by the rest. -/
theorem ends_report_bind {event : Event} {f : Unit → Op ε σ α}
    (h : (f ()).Ends ⟨s.state, s.events ++ [event]⟩ (fun a t emitted => ok a t (event :: emitted))
      fun e t emitted => fail e t (event :: emitted)) : (report event >>= f).Ends s ok fail := by
  have hreport : (report event : Op ε σ Unit).Ends s
      (fun _ t emitted => t = s.state ∧ emitted = [event]) fail := ends_report ⟨rfl, rfl⟩
  apply hreport.bind
  rintro _ _ _ ⟨rfl, rfl⟩
  exact h

theorem Ends.mapError {op : Op ε σ α} {f : ε → ε'} {fail' : ε' → σ → List Event → Prop}
    (h : op.Ends s ok fail) (hfail : ∀ e t emitted, fail e t emitted → fail' (f e) t emitted) :
    (op.mapError f).Ends s ok fail' := by
  have hmono := h.mono (fun _ _ _ ha => ha) hfail
  unfold Ends EndsFrom at hmono ⊢
  unfold Op.mapError
  cases hop : op s with
  | ok a t =>
    rw [hop] at hmono
    exact hmono
  | error e t =>
    rw [hop] at hmono
    exact hmono

theorem Ends.within {get : τ → σ} {set : τ → σ → τ} {op : Op ε σ α} {s : Journaled τ}
    {ok : α → τ → List Event → Prop} {fail : ε → τ → List Event → Prop}
    (h : op.Ends ⟨get s.state, s.events⟩ (fun a t => ok a (set s.state t))
      fun e t => fail e (set s.state t)) : (op.within get set).Ends s ok fail := by
  unfold Ends EndsFrom at h ⊢
  unfold Op.within
  cases hop : op ⟨get s.state, s.events⟩ with
  | ok a t =>
    rw [hop] at h
    exact h
  | error e t =>
    rw [hop] at h
    exact h

/-- What has been reported in any case, and what has come of the operation in each case. -/
theorem Ends.after {op : Op ε σ α} (h : op.Ends s ok fail) :
    ∃ emitted, (op.after s).events = s.events ++ emitted ∧
      ((∃ a, op.outcome s = .ok a ∧ ok a (op.after s).state emitted) ∨
        ∃ e, op.outcome s = .error e ∧ fail e (op.after s).state emitted) := by
  unfold Ends EndsFrom at h
  unfold Op.after Op.outcome
  cases hop : op s with
  | ok a t =>
    rw [hop] at h
    obtain ⟨emitted, hevents, ha⟩ := h
    exact ⟨emitted, hevents, .inl ⟨a, rfl, ha⟩⟩
  | error e t =>
    rw [hop] at h
    obtain ⟨emitted, hevents, he⟩ := h
    exact ⟨emitted, hevents, .inr ⟨e, rfl, he⟩⟩

end Ends

/-! ### Events of one kind -/

/-- All that the operation reports is of one kind, whatever comes of it. -/
def Reports (p : Event → Prop) (op : Op ε σ α) : Prop :=
  ∀ s, op.Ends s (fun _ _ emitted => ∀ event ∈ emitted, p event)
    fun _ _ emitted => ∀ event ∈ emitted, p event

section Reports

variable {p : Event → Prop}

theorem reports_pure (a : α) : Reports p (pure a : Op ε σ α) :=
  fun _ => ends_pure (List.forall_mem_nil p)

theorem reports_throw (e : ε) : Reports p (throw e : Op ε σ α) :=
  fun _ => ends_throw (List.forall_mem_nil p)

theorem reports_report {event : Event} (h : p event) : Reports p (report event : Op ε σ Unit) :=
  fun _ => ends_report (List.forall_mem_singleton.2 h)

theorem reports_state : Reports p (state : Op ε σ σ) := fun _ =>
  ends_of_ok rfl (List.forall_mem_nil p)

theorem reports_setState (state : σ) : Reports p (setState state : Op ε σ Unit) :=
  fun _ => ⟨[], (List.append_nil _).symm, List.forall_mem_nil p⟩

theorem reports_look (f : σ → Except ε α) : Reports p (look f) :=
  fun _ => ends_look (fun _ _ => List.forall_mem_nil p) fun _ _ => List.forall_mem_nil p

theorem reports_ofExcept (r : Except ε α) : Reports p (ofExcept r : Op ε σ α) := reports_look _

theorem reports_change (f : σ → Except ε σ) : Reports p (change f) := by
  intro s
  cases h : f s.state with
  | ok next =>
    rw [Ends, change_eq_ok_iff (u := ()).2 ⟨next, h, rfl⟩]
    exact ⟨[], (List.append_nil _).symm, List.forall_mem_nil p⟩
  | error e => exact ends_of_error (change_eq_error_iff.2 ⟨h, rfl⟩) (List.forall_mem_nil p)

theorem Reports.bind {x : Op ε σ α} {f : α → Op ε σ β} (hx : Reports p x)
    (hf : ∀ a, Reports p (f a)) : Reports p (x >>= f) := by
  intro s
  refine (hx s).bind ?_
  intro a state before hbefore
  exact (hf a _).mono (fun _ _ _ h => List.forall_mem_append.2 ⟨hbefore, h⟩)
    fun _ _ _ h => List.forall_mem_append.2 ⟨hbefore, h⟩

theorem Reports.attempt_bind {x : Op ε σ α} {f : Except ε α → Op ε' σ β} (hx : Reports p x)
    (hok : ∀ a, Reports p (f (.ok a))) (hfail : ∀ e, Reports p (f (.error e))) :
    Reports p (x.attempt >>= f) := by
  intro s
  refine (hx s).attempt_bind ?_ ?_
  · intro a state before hbefore
    exact (hok a _).mono (fun _ _ _ h => List.forall_mem_append.2 ⟨hbefore, h⟩)
      fun _ _ _ h => List.forall_mem_append.2 ⟨hbefore, h⟩
  · intro e state before hbefore
    exact (hfail e _).mono (fun _ _ _ h => List.forall_mem_append.2 ⟨hbefore, h⟩)
      fun _ _ _ h => List.forall_mem_append.2 ⟨hbefore, h⟩

theorem Reports.within {get : τ → σ} {set : τ → σ → τ} {op : Op ε σ α} (h : Reports p op) :
    Reports p (op.within get set) := fun s => (h ⟨get s.state, s.events⟩).within

/-- What is known of the state after each outcome, together with what is reported. -/
theorem Reports.ends {op : Op ε σ α} {ok : α → σ → Prop} {fail : ε → σ → Prop} (h : Reports p op)
    (hok : ∀ a t, op s = .ok a t → ok a t.state)
    (hfail : ∀ e t, op s = .error e t → fail e t.state) :
    op.Ends s (fun a t emitted => ok a t ∧ ∀ event ∈ emitted, p event)
      fun e t emitted => fail e t ∧ ∀ event ∈ emitted, p event := by
  have hreports := h s
  unfold Ends EndsFrom at hreports ⊢
  cases hop : op s with
  | ok a t =>
    rw [hop] at hreports
    obtain ⟨emitted, hevents, hkind⟩ := hreports
    exact ⟨emitted, hevents, hok a t hop, hkind⟩
  | error e t =>
    rw [hop] at hreports
    obtain ⟨emitted, hevents, hkind⟩ := hreports
    exact ⟨emitted, hevents, hfail e t hop, hkind⟩

end Reports

end TypedStore.Op
