/-
  TypedStore/Proofs/Mirrors.lean
  ==============================
  **Operations side by side.**

  Two operations are run from two states that stand in a relation. The one mirrors the other
  (`Mirrors`) if both have the same outcome and leave states in that relation; most often they are the
  same operation twice (`Uniform`). The first may be excused: where it fails in one of certain ways
  nothing is said of the second. There is a rule for each way of putting operations together; what is
  looked up on both sides has to be the same, or the rest has to be mirrored for both of the things
  found (`Mirrors.state_bind`).
-/
import TypedStore.Proofs.Operations
import TypedStore.Proofs.Results

namespace TypedStore.Op

variable {ε ε' σ τ α β : Type} {s t : Journaled σ} {a : α} {e : ε}

/-! ### Outcomes of operations that are put together -/

/-- Outcome and state afterwards are those of the result. -/
theorem outcome_after_congr {x y : Op ε σ α} (h : x s = y t) :
    x.outcome s = y.outcome t ∧ x.after s = y.after t := by
  rw [outcome, outcome, after, after, h]
  exact ⟨rfl, rfl⟩

/-- The operation fails in one of certain ways, whatever it is run on. -/
def Fails (q : ε → Prop) (op : Op ε σ α) : Prop := ∀ s, ∃ e, op.outcome s = .error e ∧ q e

theorem fails_throw {q : ε → Prop} (h : q e) : Fails q (throw e : Op ε σ α) := fun _ => ⟨e, rfl, h⟩

theorem fails_report_throw {q : ε → Prop} (event : Event) (h : q e) :
    Fails q (report event >>= fun _ => throw e : Op ε σ α) := fun _ => ⟨e, rfl, h⟩

/-! ### The judgment -/

/-- On states that stand in the relation the operations have the same outcome, and leave states that
    stand in the relation; unless the first fails in one of certain ways. -/
def Mirrors (p : ε → Prop) (r : σ → σ → Prop) (x y : Op ε σ α) : Prop :=
  ∀ s t, r s.state t.state → (∃ e, x.outcome s = .error e ∧ p e) ∨
    (x.outcome s = y.outcome t ∧ r (x.after s).state (y.after t).state)

/-- The operation does the same on states that stand in the relation. -/
abbrev Uniform (p : ε → Prop) (r : σ → σ → Prop) (op : Op ε σ α) : Prop := Mirrors p r op op

section Mirrors

variable {p : ε → Prop} {q : ε' → Prop} {r : σ → σ → Prop}

theorem uniform_pure (a : α) : Uniform p r (pure a : Op ε σ α) := fun _ _ h => .inr ⟨rfl, h⟩

theorem uniform_throw (e : ε) : Uniform p r (throw e : Op ε σ α) := fun _ _ h => .inr ⟨rfl, h⟩

theorem uniform_report (event : Event) : Uniform p r (report event : Op ε σ Unit) :=
  fun _ _ h => .inr ⟨rfl, h⟩

theorem mirrors_setState {x y : σ} (h : r x y) :
    Mirrors p r (setState x : Op ε σ Unit) (setState y) := fun _ _ _ => .inr ⟨rfl, h⟩

theorem mirrors_look {f g : σ → Except ε α} (h : ∀ x y, r x y → f x = g y) :
    Mirrors p r (look f) (look g) := by
  intro s t hrel
  have hsame := h _ _ hrel
  right
  cases hf : f s.state with
  | ok a =>
    rw [hf] at hsame
    rw [outcome_of_ok (look_of_ok hf), outcome_of_ok (look_of_ok hsame.symm),
      after_of_ok (look_of_ok hf), after_of_ok (look_of_ok hsame.symm)]
    exact ⟨rfl, hrel⟩
  | error e =>
    rw [hf] at hsame
    rw [outcome_of_error (look_of_error hf), outcome_of_error (look_of_error hsame.symm),
      after_of_error (look_of_error hf), after_of_error (look_of_error hsame.symm)]
    exact ⟨rfl, hrel⟩

theorem uniform_ofExcept (result : Except ε α) : Uniform p r (ofExcept result : Op ε σ α) :=
  mirrors_look fun _ _ _ => rfl

theorem mirrors_change {f g : σ → Except ε σ} (h : ∀ x y, r x y → Except.Alike r (f x) (g y)) :
    Mirrors p r (change f) (change g) := by
  intro s t hrel
  have halike := h _ _ hrel
  right
  unfold outcome after change
  cases hf : f s.state with
  | ok x =>
    rw [hf] at halike
    cases hg : g t.state with
    | ok y =>
      rw [hg] at halike
      cases halike with
      | ok hxy => exact ⟨rfl, hxy⟩
    | error e =>
      rw [hg] at halike
      cases halike
  | error e =>
    rw [hf] at halike
    cases hg : g t.state with
    | ok y =>
      rw [hg] at halike
      cases halike
    | error e' =>
      rw [hg] at halike
      cases halike
      exact ⟨rfl, hrel⟩

theorem mirrors_step {f g : σ → Except ε α × σ}
    (h : ∀ x y, r x y → (f x).1 = (g y).1 ∧ r (f x).2 (g y).2) : Mirrors p r (step f) (step g) := by
  have hstep (f : σ → Except ε α × σ) (s : Journaled σ) :
      (step f).outcome s = (f s.state).1 ∧ ((step f).after s).state = (f s.state).2 := by
    unfold outcome after step
    obtain ⟨result, next⟩ := f s.state
    cases result <;> exact ⟨rfl, rfl⟩
  intro s t hrel
  obtain ⟨houtcome, hstate⟩ := hstep f s
  obtain ⟨houtcome', hstate'⟩ := hstep g t
  rw [houtcome, houtcome', hstate, hstate']
  exact .inr (h _ _ hrel)

theorem Mirrors.bind {x y : Op ε σ α} {f g : α → Op ε σ β} (h : Mirrors p r x y)
    (hf : ∀ a, Mirrors p r (f a) (g a)) : Mirrors p r (x >>= f) (y >>= g) := by
  intro s t hrel
  rcases h s t hrel with ⟨e, he, hp⟩ | ⟨hsame, hafter⟩
  · exact .inl ⟨e, outcome_of_error (bind_of_error (eq_error_of_outcome he)), hp⟩
  · cases hx : x.outcome s with
    | ok a =>
      obtain ⟨houtcome, hstate⟩ :=
        outcome_after_congr (bind_of_ok (f := f) (eq_ok_of_outcome hx))
      obtain ⟨houtcome', hstate'⟩ :=
        outcome_after_congr (bind_of_ok (f := g) (eq_ok_of_outcome (hsame.symm.trans hx)))
      rw [houtcome, houtcome', hstate, hstate']
      exact hf a _ _ hafter
    | error e =>
      have hxe := bind_of_error (f := f) (eq_error_of_outcome hx)
      have hye := bind_of_error (f := g) (eq_error_of_outcome (hsame.symm.trans hx))
      rw [outcome_of_error hxe, outcome_of_error hye, after_of_error hxe, after_of_error hye]
      exact .inr ⟨rfl, hafter⟩

/-- What follows may depend on the state that is found, if it is mirrored for both of the states. -/
theorem Mirrors.state_bind {f g : σ → Op ε σ α} (h : ∀ x y, r x y → Mirrors p r (f x) (g y)) :
    Mirrors p r (state >>= f) (state >>= g) := fun s t hrel => h _ _ hrel s t hrel

/-- Where a failure is handled, what follows has to be mirrored for it too, and must not hide one that
    excuses. -/
theorem Mirrors.attempt_bind {x y : Op ε σ α} {f g : Except ε α → Op ε' σ β} (h : Mirrors p r x y)
    (hf : ∀ result, Mirrors q r (f result) (g result)) (hfails : ∀ e, p e → Fails q (f (.error e))) :
    Mirrors q r (x.attempt >>= f) (y.attempt >>= g) := by
  have hattempt {z : Op ε σ α} {k : Except ε α → Op ε' σ β} (u : Journaled σ) :
      (z.attempt >>= k) u = k (z.outcome u) (z.after u) := by
    cases hz : z.outcome u with
    | ok a => exact bind_of_ok (attempt_of_ok (eq_ok_of_outcome hz))
    | error e => exact bind_of_ok (attempt_of_error (eq_error_of_outcome hz))
  intro s t hrel
  obtain ⟨houtcome, hstate⟩ := outcome_after_congr (hattempt (z := x) (k := f) s)
  obtain ⟨houtcome', hstate'⟩ := outcome_after_congr (hattempt (z := y) (k := g) t)
  rw [houtcome, houtcome', hstate, hstate']
  rcases h s t hrel with ⟨e, he, hp⟩ | ⟨hsame, hafter⟩
  · rw [he]
    exact .inl (hfails e hp _)
  · rw [← hsame]
    exact hf _ _ _ hafter

theorem Mirrors.mapError {x y : Op ε σ α} (h : Mirrors p r x y) {f : ε → ε'}
    (hf : ∀ e, p e → q (f e)) : Mirrors q r (x.mapError f) (y.mapError f) := by
  have hmap {z : Op ε σ α} (u : Journaled σ) :
      (z.mapError f).outcome u = (z.outcome u).mapError f ∧ (z.mapError f).after u = z.after u := by
    unfold outcome after Op.mapError
    cases z u <;> exact ⟨rfl, rfl⟩
  intro s t hrel
  obtain ⟨houtcome, hstate⟩ := hmap (z := x) s
  obtain ⟨houtcome', hstate'⟩ := hmap (z := y) t
  rw [houtcome, houtcome', hstate, hstate']
  rcases h s t hrel with ⟨e, he, hp⟩ | ⟨hsame, hafter⟩
  · exact .inl ⟨f e, by rw [he, Except.mapError_error], hf e hp⟩
  · exact .inr ⟨by rw [hsame], hafter⟩

theorem within_outcome_after (get : τ → σ) (set : τ → σ → τ) (x : Op ε σ α) (s : Journaled τ) :
    (x.within get set).outcome s = x.outcome ⟨get s.state, s.events⟩ ∧
      ((x.within get set).after s).state =
        set s.state (x.after ⟨get s.state, s.events⟩).state := by
  unfold outcome after Op.within
  cases x ⟨get s.state, s.events⟩ <;> exact ⟨rfl, rfl⟩

theorem Mirrors.within {get : τ → σ} {set : τ → σ → τ} {r' : τ → τ → Prop} {x y : Op ε σ α}
    (h : Mirrors p r x y) (hget : ∀ s t, r' s t → r (get s) (get t))
    (hset : ∀ s t, r' s t → ∀ next next', r next next' → r' (set s next) (set t next')) :
    Mirrors p r' (x.within get set) (y.within get set) := by
  intro s t hrel
  obtain ⟨houtcome, hstate⟩ := within_outcome_after get set x s
  obtain ⟨houtcome', hstate'⟩ := within_outcome_after get set y t
  rw [houtcome, houtcome', hstate, hstate']
  exact (h ⟨get s.state, s.events⟩ ⟨get t.state, t.events⟩ (hget _ _ hrel)).imp id
    fun ⟨hsame, hafter⟩ => ⟨hsame, hset _ _ hrel _ _ hafter⟩

/-- An operation that is not excused may be. -/
theorem Mirrors.excuse {x y : Op ε σ α} (h : Mirrors (fun _ => False) r x y) : Mirrors p r x y :=
  fun s t hrel => (h s t hrel).imp (fun ⟨_, _, hno⟩ => hno.elim) id

/-- What the first operation keeps, unless it is excused, may be added to the relation. -/
theorem Mirrors.keeping {x y : Op ε σ α} (h : Mirrors (fun _ => False) r x y) {inv : σ → Prop}
    (hinv : ∀ s : Journaled σ, inv s.state →
      (∃ e, x.outcome s = .error e ∧ p e) ∨ inv (x.after s).state) :
    Mirrors p (fun s t => r s t ∧ inv s) x y := by
  rintro s t ⟨hrel, hs⟩
  rcases h s t hrel with ⟨_, _, hno⟩ | ⟨hsame, hafter⟩
  · exact hno.elim
  · exact (hinv s hs).imp id fun hkept => ⟨hsame, hafter, hkept⟩

end Mirrors

end TypedStore.Op
