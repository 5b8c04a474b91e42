/-
  TypedStore/Proofs/Operations.lean
  =================================
  **What it means that an operation succeeds.**

  An operation that is put together succeeds exactly if its parts do, one after the other. The
  lemmas take such a success apart, and put it together where a part is known to succeed.

  What an operation may fail with (`FailsOnly`), what it leaves in any case (`Leaves`) and what it
  answers unless it fails in certain ways (`Answers`) follow from its parts in the same way.
-/
import TypedStore.Journal

namespace TypedStore.Op

variable {ε ε' σ τ α β : Type} {s t : Journaled σ} {a : α} {b : β} {e : ε}

theorem bind_of_ok {x : Op ε σ α} {f : α → Op ε σ β} (h : x s = .ok a t) : (x >>= f) s = f a t := by
  change EStateM.bind x f s = _
  rw [EStateM.bind, h]

theorem bind_of_error {x : Op ε σ α} {f : α → Op ε σ β} (h : x s = .error e t) :
    (x >>= f) s = .error e t := by
  change EStateM.bind x f s = _
  rw [EStateM.bind, h]

/-- What follows depends on the outcome alone. -/
theorem bind_congr {x y : Op ε σ α} {f : α → Op ε σ β} (h : x s = y s) :
    (x >>= f) s = (y >>= f) s := by
  change EStateM.bind x f s = EStateM.bind y f s
  rw [EStateM.bind, EStateM.bind, h]

theorem bind_eq_ok_iff {x : Op ε σ α} {f : α → Op ε σ β} :
    (x >>= f) s = .ok b t ↔ ∃ a r, x s = .ok a r ∧ f a r = .ok b t := by
  cases hx : x s with
  | ok a r =>
    rw [bind_of_ok hx]
    constructor
    · intro h
      exact ⟨a, r, rfl, h⟩
    · rintro ⟨a', r', heq, h⟩
      cases heq
      exact h
  | error e r =>
    rw [bind_of_error hx]
    constructor
    · intro h
      cases h
    · rintro ⟨a', r', heq, -⟩
      cases heq

theorem bind_eq_error_iff {x : Op ε σ α} {f : α → Op ε σ β} :
    (x >>= f) s = .error e t ↔
      x s = .error e t ∨ ∃ a r, x s = .ok a r ∧ f a r = .error e t := by
  cases hx : x s with
  | ok a r =>
    rw [bind_of_ok hx]
    constructor
    · intro h
      exact .inr ⟨a, r, rfl, h⟩
    · rintro (heq | ⟨a', r', heq, h⟩)
      · cases heq
      · cases heq
        exact h
  | error e' r =>
    rw [bind_of_error hx]
    constructor
    · intro heq
      cases heq
      exact .inl rfl
    · rintro (heq | ⟨a', r', heq, -⟩)
      · cases heq
        rfl
      · cases heq

@[simp]
theorem pure_apply (a : α) (s : Journaled σ) : (pure a : Op ε σ α) s = .ok a s := rfl

@[simp]
theorem throw_apply (e : ε) (s : Journaled σ) : (throw e : Op ε σ α) s = .error e s := rfl

/-- A result that is known is gone on from. -/
theorem ofExcept_ok_bind (a : α) (f : α → Op ε σ β) : (ofExcept (.ok a) >>= f) = f a := rfl

theorem state_apply (s : Journaled σ) : (state : Op ε σ σ) s = .ok s.state s := rfl

theorem change_eq_ok_iff {f : σ → Except ε σ} {u : Unit} :
    change f s = .ok u t ↔ ∃ next, f s.state = .ok next ∧ t = ⟨next, s.events⟩ := by
  unfold change
  cases f s.state with
  | ok next => simp [eq_comm]
  | error e => simp

theorem change_eq_error_iff {f : σ → Except ε σ} :
    change f s = .error e t ↔ f s.state = .error e ∧ t = s := by
  unfold change
  cases f s.state with
  | ok next => simp
  | error e' => simp [eq_comm]

theorem look_of_ok {f : σ → Except ε α} (h : f s.state = .ok a) : look f s = .ok a s := by
  rw [look, h]

theorem look_of_error {f : σ → Except ε α} (h : f s.state = .error e) : look f s = .error e s := by
  rw [look, h]

theorem look_eq_ok_iff {f : σ → Except ε α} : look f s = .ok a t ↔ f s.state = .ok a ∧ t = s := by
  unfold look
  cases f s.state with
  | ok a => simp [eq_comm]
  | error e => simp

theorem look_eq_error_iff {f : σ → Except ε α} :
    look f s = .error e t ↔ f s.state = .error e ∧ t = s := by
  unfold look
  cases f s.state with
  | ok a => simp
  | error e' => simp [eq_comm]

/-- After a look that is refused nothing has changed, and after another what follows decides. -/
theorem look_bind_eq_error_iff {f : σ → Except ε α} {g : α → Op ε σ β} :
    (look f >>= g) s = .error e t ↔
      (f s.state = .error e ∧ t = s) ∨ ∃ a, f s.state = .ok a ∧ g a s = .error e t := by
  rw [bind_eq_error_iff, look_eq_error_iff]
  simp only [look_eq_ok_iff, and_assoc, exists_and_left, exists_eq_left]

theorem ofExcept_bind_eq_error_iff {result : Except ε α} {g : α → Op ε σ β} :
    (ofExcept result >>= g) s = .error e t ↔
      (result = .error e ∧ t = s) ∨ ∃ a, result = .ok a ∧ g a s = .error e t :=
  look_bind_eq_error_iff

theorem step_eq_ok_iff {f : σ → Except ε α × σ} :
    step f s = .ok a t ↔ ∃ next, f s.state = (.ok a, next) ∧ t = ⟨next, s.events⟩ := by
  unfold step
  cases hresult : f s.state with
  | mk result next =>
    cases result with
    | ok a' =>
      constructor
      · intro h
        cases h
        exact ⟨next, rfl, rfl⟩
      · rintro ⟨next', heq, rfl⟩
        cases heq
        rfl
    | error e =>
      constructor
      · intro h
        cases h
      · rintro ⟨next', heq, -⟩
        cases heq

theorem mapError_eq_ok_iff {f : ε → ε'} {op : Op ε σ α} :
    op.mapError f s = .ok a t ↔ op s = .ok a t := by
  unfold mapError
  cases op s <;> simp

theorem mapError_of_error {f : ε → ε'} {op : Op ε σ α} (h : op s = .error e t) :
    op.mapError f s = .error (f e) t := by
  rw [mapError, h]

theorem attempt_of_ok {op : Op ε σ α} (h : op s = .ok a t) :
    (op.attempt : Op ε' σ (Except ε α)) s = .ok (.ok a) t := by
  rw [attempt, h]

theorem attempt_of_error {op : Op ε σ α} (h : op s = .error e t) :
    (op.attempt : Op ε' σ (Except ε α)) s = .ok (.error e) t := by
  rw [attempt, h]

theorem within_eq_ok_iff {get : τ → σ} {set : τ → σ → τ} {op : Op ε σ α} {s t : Journaled τ} :
    op.within get set s = .ok a t ↔
      ∃ r, op ⟨get s.state, s.events⟩ = .ok a r ∧ t = ⟨set s.state r.state, r.events⟩ := by
  unfold within
  cases op ⟨get s.state, s.events⟩ with
  | ok a' r =>
    constructor
    · intro h
      cases h
      exact ⟨r, rfl, rfl⟩
    · rintro ⟨r', heq, rfl⟩
      cases heq
      rfl
  | error e r =>
    constructor
    · intro h
      cases h
    · rintro ⟨r', heq, -⟩
      cases heq

theorem within_eq_error_iff {get : τ → σ} {set : τ → σ → τ} {op : Op ε σ α} {s t : Journaled τ} :
    op.within get set s = .error e t ↔
      ∃ r, op ⟨get s.state, s.events⟩ = .error e r ∧ t = ⟨set s.state r.state, r.events⟩ := by
  unfold within
  cases op ⟨get s.state, s.events⟩ with
  | ok a r =>
    constructor
    · intro h
      cases h
    · rintro ⟨r', heq, -⟩
      cases heq
  | error e' r =>
    constructor
    · intro h
      cases h
      exact ⟨r, rfl, rfl⟩
    · rintro ⟨r', heq, rfl⟩
      cases heq
      rfl

/-- An operation of which the failure is handled goes on in one of two ways. -/
theorem attempt_bind_eq_iff {op : Op ε σ α} {f : Except ε α → Op ε' σ β}
    {result : EStateM.Result ε' (Journaled σ) β} :
    (op.attempt >>= f) s = result ↔
      (∃ a r, op s = .ok a r ∧ f (.ok a) r = result) ∨
        ∃ e r, op s = .error e r ∧ f (.error e) r = result := by
  cases hop : op s with
  | ok a r =>
    rw [bind_of_ok (attempt_of_ok hop)]
    constructor
    · intro h
      exact .inl ⟨a, r, rfl, h⟩
    · rintro (⟨a', r', heq, h⟩ | ⟨e, r', heq, -⟩)
      · cases heq
        exact h
      · cases heq
  | error e r =>
    rw [bind_of_ok (attempt_of_error hop)]
    constructor
    · intro h
      exact .inr ⟨e, r, rfl, h⟩
    · rintro (⟨a, r', heq, -⟩ | ⟨e', r', heq, h⟩)
      · cases heq
      · cases heq
        exact h

theorem attempt_bind_eq_ok_iff {op : Op ε σ α} {f : Except ε α → Op ε' σ β} :
    (op.attempt >>= f) s = .ok b t ↔
      (∃ a r, op s = .ok a r ∧ f (.ok a) r = .ok b t) ∨
        ∃ e r, op s = .error e r ∧ f (.error e) r = .ok b t := attempt_bind_eq_iff

/-- After a failure has been passed on there is no success. -/
theorem bind_throw_ne_ok {x : Op ε σ α} {e : ε} {b : β} :
    (x >>= fun _ => (throw e : Op ε σ β)) s ≠ .ok b t := by
  intro h
  obtain ⟨_, _, _, hthrow⟩ := bind_eq_ok_iff.1 h
  cases hthrow

/-! ### Outcomes -/

/-- What an operation returns or fails with. -/
def outcome (op : Op ε σ α) (s : Journaled σ) : Except ε α :=
  match op s with
  | .ok a _ => .ok a
  | .error e _ => .error e

/-- The state and the events after an operation, be it successful or not. -/
def after (op : Op ε σ α) (s : Journaled σ) : Journaled σ :=
  match op s with
  | .ok _ t => t
  | .error _ t => t

theorem outcome_of_ok {op : Op ε σ α} (h : op s = .ok a t) : op.outcome s = .ok a := by
  rw [outcome, h]

theorem outcome_of_error {op : Op ε σ α} (h : op s = .error e t) : op.outcome s = .error e := by
  rw [outcome, h]

theorem after_of_ok {op : Op ε σ α} (h : op s = .ok a t) : op.after s = t := by
  rw [after, h]

theorem after_of_error {op : Op ε σ α} (h : op s = .error e t) : op.after s = t := by
  rw [after, h]

theorem eq_ok_of_outcome {op : Op ε σ α} (h : op.outcome s = .ok a) :
    op s = .ok a (op.after s) := by
  unfold outcome at h
  unfold after
  cases hop : op s with
  | ok a' t =>
    rw [hop] at h
    cases h
    rfl
  | error e t =>
    rw [hop] at h
    cases h

theorem eq_error_of_outcome {op : Op ε σ α} (h : op.outcome s = .error e) :
    op s = .error e (op.after s) := by
  unfold outcome at h
  unfold after
  cases hop : op s with
  | ok a t =>
    rw [hop] at h
    cases h
  | error e' t =>
    rw [hop] at h
    cases h
    rfl

/-- Whatever comes of the operation, the state after it stands in this relation to the state
    before. -/
def Leaves (r : σ → σ → Prop) (op : Op ε σ α) : Prop := ∀ s, r s.state (op.after s).state

section Leaves

variable {r : σ → σ → Prop}

theorem leaves_pure (hrefl : ∀ x, r x x) (a : α) : Leaves r (pure a : Op ε σ α) :=
  fun s => hrefl s.state

theorem leaves_throw (hrefl : ∀ x, r x x) (e : ε) : Leaves r (throw e : Op ε σ α) :=
  fun s => hrefl s.state

theorem leaves_report (hrefl : ∀ x, r x x) (event : Event) :
    Leaves r (report event : Op ε σ Unit) :=
  fun s => hrefl s.state

theorem leaves_look (hrefl : ∀ x, r x x) (f : σ → Except ε α) : Leaves r (look f) := by
  intro s
  cases h : f s.state with
  | ok a =>
    rw [after_of_ok (look_of_ok h)]
    exact hrefl s.state
  | error e =>
    rw [after_of_error (look_of_error h)]
    exact hrefl s.state

theorem leaves_change (hrefl : ∀ x, r x x) {f : σ → Except ε σ}
    (h : ∀ x y, f x = .ok y → r x y) : Leaves r (change f) := by
  intro s
  cases hf : f s.state with
  | ok next =>
    rw [after_of_ok (change_eq_ok_iff (u := ()).2 ⟨next, hf, rfl⟩)]
    exact h _ _ hf
  | error e =>
    rw [after_of_error (change_eq_error_iff.2 ⟨hf, rfl⟩)]
    exact hrefl s.state

theorem leaves_step {f : σ → Except ε α × σ} (h : ∀ x, r x (f x).2) : Leaves r (step f) := by
  intro s
  have hstep := h s.state
  unfold after step
  cases hf : f s.state with
  | mk result next =>
    rw [hf] at hstep
    cases result <;> exact hstep

theorem Leaves.bind {x : Op ε σ α} {f : α → Op ε σ β} (hx : Leaves r x)
    (htrans : ∀ {a b c}, r a b → r b c → r a c) (hf : ∀ a, Leaves r (f a)) :
    Leaves r (x >>= f) := by
  intro s
  have hfirst := hx s
  cases hop : x s with
  | ok a t =>
    rw [after_of_ok hop] at hfirst
    have hsecond := hf a t
    rw [after] at hsecond ⊢
    rw [bind_of_ok hop]
    exact htrans hfirst hsecond
  | error e t =>
    rw [after_of_error hop] at hfirst
    rw [after_of_error (bind_of_error hop)]
    exact hfirst

/-- Where a failure is handled, what follows is there for it too. -/
theorem Leaves.attempt_bind {x : Op ε σ α} {f : Except ε α → Op ε' σ β} (hx : Leaves r x)
    (htrans : ∀ {a b c}, r a b → r b c → r a c) (hf : ∀ result, Leaves r (f result)) :
    Leaves r (x.attempt >>= f) := by
  refine Leaves.bind ?_ htrans hf
  intro s
  have hstep := hx s
  cases hop : x s with
  | ok a t =>
    rw [after_of_ok hop] at hstep
    rw [after_of_ok (attempt_of_ok hop)]
    exact hstep
  | error e t =>
    rw [after_of_error hop] at hstep
    rw [after_of_ok (attempt_of_error hop)]
    exact hstep

theorem Leaves.mapError {x : Op ε σ α} {f : ε → ε'} (hx : Leaves r x) : Leaves r (x.mapError f) := by
  intro s
  have hstep := hx s
  unfold after Op.mapError
  unfold after at hstep
  cases hop : x s with
  | ok a t =>
    rw [hop] at hstep
    exact hstep
  | error e t =>
    rw [hop] at hstep
    exact hstep

theorem Leaves.within {get : τ → σ} {set : τ → σ → τ} {x : Op ε σ α} {q : τ → τ → Prop}
    (hx : Leaves r x) (hset : ∀ s next, r (get s) next → q s (set s next)) :
    Leaves q (x.within get set) := by
  intro s
  have hstep := hx ⟨get s.state, s.events⟩
  unfold after Op.within
  unfold after at hstep
  cases hop : x ⟨get s.state, s.events⟩ with
  | ok a t =>
    rw [hop] at hstep
    exact hset _ _ hstep
  | error e t =>
    rw [hop] at hstep
    exact hset _ _ hstep

end Leaves

/-! ### What failures there are -/

/-- The operation fails in certain ways only. -/
def FailsOnly (p : ε → Prop) (op : Op ε σ α) : Prop := ∀ s e t, op s = .error e t → p e

section FailsOnly

variable {p : ε → Prop} {q : ε' → Prop}

theorem failsOnly_pure (a : α) : FailsOnly p (pure a : Op ε σ α) := fun _ _ _ h => by cases h

theorem failsOnly_report (event : Event) : FailsOnly p (report event : Op ε σ Unit) :=
  fun _ _ _ h => by cases h

theorem failsOnly_throw (h : p e) : FailsOnly p (throw e : Op ε σ α) := fun _ _ _ heq => by
  cases heq
  exact h

theorem FailsOnly.bind {x : Op ε σ α} {f : α → Op ε σ β} (hx : FailsOnly p x)
    (hf : ∀ a, FailsOnly p (f a)) : FailsOnly p (x >>= f) := by
  intro s e t h
  cases hok : x s with
  | ok a r =>
    rw [bind_of_ok hok] at h
    exact hf a r e t h
  | error e' r =>
    rw [bind_of_error hok] at h
    cases h
    exact hx s _ _ hok

/-- Where a failure is handled, what follows has to be looked at for it too. -/
theorem FailsOnly.attempt_bind {x : Op ε σ α} {f : Except ε α → Op ε' σ β} (hx : FailsOnly p x)
    (hok : ∀ a, FailsOnly q (f (.ok a))) (herror : ∀ e, p e → FailsOnly q (f (.error e))) :
    FailsOnly q (x.attempt >>= f) := by
  intro s e t h
  cases hx' : x s with
  | ok a r =>
    rw [bind_of_ok (attempt_of_ok hx')] at h
    exact hok a r e t h
  | error e' r =>
    rw [bind_of_ok (attempt_of_error hx')] at h
    exact herror e' (hx s e' r hx') r e t h

end FailsOnly

/-! ### What an operation answers -/

/-- The operation has this result and leaves such a state, unless it fails in one of certain ways. -/
def Answers (p : ε → Prop) (op : Op ε σ α) (s : Journaled σ) (result : Except ε α)
    (post : σ → Prop) : Prop :=
  match op s with
  | .ok a t => result = .ok a ∧ post t.state
  | .error e t => p e ∨ result = .error e ∧ post t.state

section Answers

variable {p : ε → Prop} {q : ε' → Prop} {result : Except ε α} {post : σ → Prop}

theorem answers_of_ok {op : Op ε σ α} (h : op s = .ok a t) (hpost : post t.state) :
    Answers p op s (.ok a) post := by
  rw [Answers, h]
  exact ⟨rfl, hpost⟩

theorem answers_of_error {op : Op ε σ α} (h : op s = .error e t) (hpost : post t.state) :
    Answers p op s (.error e) post := by
  rw [Answers, h]
  exact .inr ⟨rfl, hpost⟩

theorem Answers.mono {op : Op ε σ α} {post' : σ → Prop} (h : Answers p op s result post)
    (hpost : ∀ t, post t → post' t) : Answers p op s result post' := by
  unfold Answers at h ⊢
  cases hop : op s with
  | ok a t =>
    rw [hop] at h
    exact ⟨h.1, hpost _ h.2⟩
  | error e t =>
    rw [hop] at h
    exact h.imp id fun h => ⟨h.1, hpost _ h.2⟩

/-- What an operation answers depends on the outcome alone. -/
theorem answers_congr {x y : Op ε σ α} (h : x s = y s) :
    Answers p x s result post ↔ Answers p y s result post := by
  rw [Answers, Answers, h]

/-- An operation that can fail in these ways only and otherwise succeeds like that. -/
theorem FailsOnly.answers {op : Op ε σ α} (hfails : FailsOnly p op)
    (hok : ∀ b t, op s = .ok b t → b = a ∧ post t.state) : Answers p op s (.ok a) post := by
  unfold Answers
  cases hop : op s with
  | ok b t =>
    obtain ⟨rfl, hpost⟩ := hok b t hop
    exact ⟨rfl, hpost⟩
  | error e t => exact .inl (hfails s e t hop)

theorem Answers.outcome {op : Op ε σ α} (h : Answers p op s result post) :
    (∃ e, op.outcome s = .error e ∧ p e) ∨
      op.outcome s = result ∧ post (op.after s).state := by
  unfold Answers at h
  unfold Op.outcome after
  cases hop : op s with
  | ok a t =>
    rw [hop] at h
    exact .inr ⟨h.1.symm, h.2⟩
  | error e t =>
    rw [hop] at h
    rcases h with he | ⟨hresult, hpost⟩
    · exact .inl ⟨e, rfl, he⟩
    · exact .inr ⟨hresult.symm, hpost⟩

theorem Answers.post_of_ok {op : Op ε σ α} (h : Answers p op s result post) (hop : op s = .ok a t) :
    post t.state := by
  rw [Answers, hop] at h
  exact h.2

theorem Answers.fails {op : Op ε σ α} (h : Answers p op s (.ok a) post) (hop : op s = .error e t) :
    p e := by
  rw [Answers, hop] at h
  rcases h with he | ⟨hresult, -⟩
  · exact he
  · cases hresult

theorem Answers.bind {x : Op ε σ α} {f : α → Op ε σ β} {between : σ → Prop} {result : Except ε β}
    (hx : Answers p x s (.ok a) between)
    (hf : ∀ t, between t.state → Answers p (f a) t result post) :
    Answers p (x >>= f) s result post := by
  unfold Answers at hx ⊢
  cases hop : x s with
  | ok a' t =>
    rw [hop] at hx
    obtain ⟨hresult, hbetween⟩ := hx
    cases hresult
    rw [bind_of_ok hop]
    exact hf t hbetween
  | error e t =>
    rw [hop] at hx
    rw [bind_of_error hop]
    rcases hx with he | ⟨hresult, -⟩
    · exact .inl he
    · cases hresult

theorem Answers.bind_error {x : Op ε σ α} {f : α → Op ε σ β}
    (hx : Answers p x s (.error e) post) : Answers p (x >>= f) s (.error e) post := by
  unfold Answers at hx ⊢
  cases hop : x s with
  | ok a t =>
    rw [hop] at hx
    cases hx.1
  | error e' t =>
    rw [hop] at hx
    rw [bind_of_error hop]
    rcases hx with he | ⟨hresult, hpost⟩
    · exact .inl he
    · cases hresult
      exact .inr ⟨rfl, hpost⟩

theorem Answers.mapError {x : Op ε σ α} {f : ε → ε'} (hx : Answers p x s result post)
    (hf : ∀ e, p e → q (f e)) : Answers q (x.mapError f) s (result.mapError f) post := by
  unfold Answers at hx ⊢
  unfold Op.mapError
  cases hop : x s with
  | ok a t =>
    rw [hop] at hx
    obtain ⟨rfl, hpost⟩ := hx
    exact ⟨rfl, hpost⟩
  | error e t =>
    rw [hop] at hx
    rcases hx with he | ⟨rfl, hpost⟩
    · exact .inl (hf e he)
    · exact .inr ⟨rfl, hpost⟩

theorem Answers.within {get : τ → σ} {set : τ → σ → τ} {op : Op ε σ α} {s : Journaled τ}
    {post' : τ → Prop} (h : Answers p op ⟨get s.state, s.events⟩ result post)
    (hset : ∀ t, post t → post' (set s.state t)) :
    Answers p (op.within get set) s result post' := by
  unfold Answers at h ⊢
  unfold Op.within
  cases hop : op ⟨get s.state, s.events⟩ with
  | ok a t =>
    rw [hop] at h
    exact ⟨h.1, hset _ h.2⟩
  | error e t =>
    rw [hop] at h
    exact h.imp id fun h => ⟨h.1, hset _ h.2⟩

end Answers

end TypedStore.Op
