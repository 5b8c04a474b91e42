/-
  TypedStore/Proofs/Results.lean
  ==============================
  **Steps that may fail, after a result that is known.**

  A computation that may fail goes on from a success and stops at a failure. With the lemmas of this
  file `simp` follows it, once the results of its steps are known. Computations for the members of a list
  succeed only together, with a result for each (`Except.forall₂_of_mapM`, `Option.forall₂_of_mapM`). Two
  results are alike if both are successes, and these are alike, or both are the same failure
  (`Except.Alike`).
-/
import Mathlib.Data.List.Forall2

namespace Except

variable {ε ε' α β : Type} {x : Except ε α} {a : α}

@[simp]
theorem ok_bind (a : α) (f : α → Except ε β) : (Except.ok a >>= f) = f a := rfl

@[simp]
theorem error_bind (e : ε) (f : α → Except ε β) : (Except.error e >>= f) = .error e := rfl

@[simp]
theorem pure_eq_ok (a : α) : (pure a : Except ε α) = .ok a := rfl

@[simp]
theorem throw_eq_error (e : ε) : (throw e : Except ε α) = .error e := rfl

@[simp]
theorem mapError_ok (f : ε → ε') (a : α) : (Except.ok a).mapError f = .ok a := rfl

@[simp]
theorem mapError_error (f : ε → ε') (e : ε) :
    (Except.error e : Except ε α).mapError f = .error (f e) := rfl

theorem mapError_eq_ok_iff {f : ε → ε'} : x.mapError f = .ok a ↔ x = .ok a := by
  cases x with
  | ok b => simp
  | error e => simp

theorem map_eq_ok_iff {f : α → β} {b : β} : x.map f = .ok b ↔ ∃ a, x = .ok a ∧ f a = b := by
  cases x with
  | ok a => simp [Except.map]
  | error e => simp [Except.map]

theorem map_eq_error_iff {f : α → β} {e : ε} : x.map f = .error e ↔ x = .error e := by
  cases x with
  | ok a => simp [Except.map]
  | error e => simp [Except.map]

theorem bind_eq_ok_iff {f : α → Except ε β} {b : β} :
    (x >>= f) = .ok b ↔ ∃ a, x = .ok a ∧ f a = .ok b := by
  cases x with
  | ok a => simp
  | error e => simp

/-- Computations for the members of a list that all succeed give a result for each of them. -/
theorem forall₂_of_mapM {f : α → Except ε β} {list : List α} {results : List β}
    (h : list.mapM f = .ok results) : List.Forall₂ (fun a b => f a = .ok b) list results := by
  induction list generalizing results with
  | nil =>
    cases h
    exact .nil
  | cons a rest ih =>
    rw [List.mapM_cons] at h
    obtain ⟨b, hb, h⟩ := bind_eq_ok_iff.1 h
    obtain ⟨bs, hbs, h⟩ := bind_eq_ok_iff.1 h
    cases h
    exact .cons hb (ih hbs)

/-- Two successes that stand in a relation, or one failure twice. -/
inductive Alike (r : α → β → Prop) : Except ε α → Except ε β → Prop
  | ok {a : α} {b : β} : r a b → Alike r (.ok a) (.ok b)
  | error (e : ε) : Alike r (.error e) (.error e)

theorem Alike.mapError {r : α → β → Prop} {x : Except ε α} {y : Except ε β} (h : Alike r x y)
    (f : ε → ε') : Alike r (x.mapError f) (y.mapError f) := by
  cases h with
  | ok hr => exact .ok hr
  | error e => exact .error (f e)

end Except

namespace Option

variable {α β : Type} {f : α → Option β} {list : List α}

theorem forall₂_of_mapM {results : List β} (h : list.mapM f = some results) :
    List.Forall₂ (fun a b => f a = some b) list results := by
  induction list generalizing results with
  | nil =>
    obtain rfl := Option.some.inj h
    exact .nil
  | cons a rest ih =>
    simp only [List.mapM_cons, Option.bind_eq_bind, Option.bind_eq_some_iff, Option.pure_def,
      Option.some.injEq] at h
    obtain ⟨b, hb, results, hresults, rfl⟩ := h
    exact .cons hb (ih hresults)

theorem mapM_eq_none_iff : list.mapM f = none ↔ ∃ a ∈ list, f a = none := by
  induction list with
  | nil => simp
  | cons a rest ih =>
    rcases hresult : f a with _ | b
    · simp [hresult]
    · rcases hrest : rest.mapM f with _ | results
      · simpa [hresult, hrest] using ih.1 hrest
      · simpa [hresult, hrest] using ih

end Option
