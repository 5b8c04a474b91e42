/-
  TypedStore/Proofs/FirstRefusal.lean
  ===================================
  **Checks that are made one after the other.**

  A computation that may fail makes checks in an order. A check may refuse with a fault, and the first
  one that does decides: a result settles some checks if it is the fault of the first of them that
  refuses, or a success if none does (`Settles`). Computations that follow one another settle their
  checks one after the other (`Settles.bind`).
-/
import TypedStore.Proofs.Results

namespace TypedStore

variable {ι ε α β : Type}

/-- A fault of the first of some checks that refuses. -/
def FirstRefusal (refuses : ι → ε → Prop) : List ι → ε → Prop
  | [], _ => False
  | check :: rest, fault =>
    refuses check fault ∨ (∀ other, ¬ refuses check other) ∧ FirstRefusal refuses rest fault

/-- The result is the fault of the first of some checks that refuses, or a success if none does. -/
def Settles (refuses : ι → ε → Prop) (checks : List ι) : Except ε α → Prop
  | .ok _ => ∀ check ∈ checks, ∀ fault, ¬ refuses check fault
  | .error fault => FirstRefusal refuses checks fault

variable {refuses : ι → ε → Prop} {check : ι} {checks more : List ι} {fault : ε} {x : Except ε α}

/-! ### The first refusal -/

theorem FirstRefusal.append_left (h : FirstRefusal refuses checks fault) :
    FirstRefusal refuses (checks ++ more) fault := by
  induction checks with
  | nil => exact h.elim
  | cons check rest ih => exact h.imp id fun ⟨hpass, hrest⟩ => ⟨hpass, ih hrest⟩

theorem FirstRefusal.append_right (hpass : ∀ check ∈ checks, ∀ fault, ¬ refuses check fault)
    (h : FirstRefusal refuses more fault) : FirstRefusal refuses (checks ++ more) fault := by
  induction checks with
  | nil => exact h
  | cons check rest ih =>
    obtain ⟨hcheck, hrest⟩ := List.forall_mem_cons.1 hpass
    exact .inr ⟨hcheck, ih hrest⟩

/-- The check that refuses first, between those that have let pass and those that have not been
    reached. -/
theorem FirstRefusal.exists_split (h : FirstRefusal refuses checks fault) :
    ∃ before check after, checks = before ++ check :: after ∧
      (∀ earlier ∈ before, ∀ other, ¬ refuses earlier other) ∧ refuses check fault := by
  induction checks with
  | nil => exact h.elim
  | cons check rest ih =>
    rcases h with hrefuses | ⟨hpass, hrest⟩
    · exact ⟨[], check, rest, rfl, List.forall_mem_nil _, hrefuses⟩
    · obtain ⟨before, check', after, rfl, hbefore, hrefuses⟩ := ih hrest
      exact ⟨check :: before, check', after, rfl, List.forall_mem_cons.2 ⟨hpass, hbefore⟩, hrefuses⟩

theorem FirstRefusal.not_pass (h : FirstRefusal refuses checks fault) :
    ¬ ∀ check ∈ checks, ∀ fault, ¬ refuses check fault := by
  obtain ⟨before, check, after, rfl, -, hrefuses⟩ := h.exists_split
  intro hpass
  exact hpass check (by simp) fault hrefuses

/-- If a check refuses with one fault only, then so do checks one after the other. -/
theorem FirstRefusal.unique
    (hunique : ∀ check fault other, refuses check fault → refuses check other → fault = other)
    {other : ε} (h : FirstRefusal refuses checks fault)
    (hother : FirstRefusal refuses checks other) : fault = other := by
  induction checks with
  | nil => exact h.elim
  | cons check rest ih =>
    rcases h with hrefuses | ⟨hpass, hrest⟩
    · rcases hother with hrefuses' | ⟨hpass', -⟩
      · exact hunique check fault other hrefuses hrefuses'
      · exact absurd hrefuses (hpass' fault)
    · rcases hother with hrefuses' | ⟨-, hrest'⟩
      · exact absurd hrefuses' (hpass other)
      · exact ih hrest hrest'

/-! ### Results -/

namespace Settles

/-- Computations that follow one another settle their checks one after the other. -/
theorem bind {f : α → Except ε β} (hx : Settles refuses checks x)
    (hf : ∀ a, x = .ok a → Settles refuses more (f a)) :
    Settles refuses (checks ++ more) (x >>= f) := by
  cases x with
  | error fault => exact hx.append_left
  | ok a =>
    have hnext := hf a rfl
    rw [Except.ok_bind]
    cases hresult : f a with
    | error fault =>
      rw [hresult] at hnext
      exact hnext.append_right hx
    | ok b =>
      rw [hresult] at hnext
      intro check hcheck
      rcases List.mem_append.1 hcheck with hfirst | hsecond
      · exact hx check hfirst
      · exact hnext check hsecond

theorem map (h : Settles refuses checks x) (f : α → β) : Settles refuses checks (x.map f) := by
  cases x with
  | ok a => exact h
  | error fault => exact h

/-- A check that lets pass leaves the result to the others. -/
theorem cons (hpass : ∀ fault, ¬ refuses check fault) (h : Settles refuses checks x) :
    Settles refuses (check :: checks) x := by
  cases x with
  | ok a => exact List.forall_mem_cons.2 ⟨hpass, h⟩
  | error fault => exact .inr ⟨hpass, h⟩

theorem of_refuses (h : refuses check fault) :
    Settles refuses (check :: checks) (.error fault : Except ε α) := .inl h

theorem of_passes (hpass : ∀ fault, ¬ refuses check fault) {a : α} :
    Settles refuses [check] (.ok a) := List.forall_mem_singleton.2 hpass

/-- A check that is made by a condition of its own, before the others. -/
theorem guard {p : Prop} [Decidable p] {rest : Unit → Except ε α}
    (hrefuses : p → refuses check fault) (hpass : ¬ p → ∀ other, ¬ refuses check other)
    (hrest : Settles refuses checks (rest ())) :
    Settles refuses (check :: checks) (if p then throw fault >>= rest else rest ()) := by
  by_cases hp : p
  · rw [if_pos hp]
    exact .of_refuses (hrefuses hp)
  · rw [if_neg hp]
    exact .cons (hpass hp) hrest

/-- A check that is passed with what an option holds. -/
theorem ofOption {option : Option α} (hrefuses : option = none → refuses check fault)
    (hpass : option ≠ none → ∀ other, ¬ refuses check other) :
    Settles refuses [check] (option.elim (.error fault) .ok : Except ε α) := by
  rcases option with _ | a
  · exact .of_refuses (hrefuses rfl)
  · exact .of_passes (hpass nofun)

/-- Computations that are made for each member of a list settle whether one of them fails. -/
theorem mapM (f : α → Except ε β) (list : List α) :
    Settles (fun a fault => f a = .error fault) list (list.mapM f) := by
  induction list with
  | nil => exact List.forall_mem_nil _
  | cons a rest ih =>
    rw [List.mapM_cons]
    cases ha : f a with
    | error fault => exact .of_refuses ha
    | ok b =>
      have hpass : ∀ fault, f a ≠ .error fault := by
        rw [ha]
        exact nofun
      cases hrest : rest.mapM f with
      | error fault =>
        rw [hrest] at ih
        exact .cons hpass ih
      | ok bs =>
        rw [hrest] at ih
        exact .cons (x := .ok (b :: bs)) hpass ih

theorem exists_ok_iff (h : Settles refuses checks x) :
    (∃ a, x = .ok a) ↔ ∀ check ∈ checks, ∀ fault, ¬ refuses check fault := by
  cases x with
  | ok a => exact iff_of_true ⟨a, rfl⟩ h
  | error fault => exact iff_of_false nofun h.not_pass

theorem eq_ok_iff {x : Except ε Unit} (h : Settles refuses checks x) :
    x = .ok () ↔ ∀ check ∈ checks, ∀ fault, ¬ refuses check fault := by
  rw [← h.exists_ok_iff]
  exact ⟨fun hx => ⟨(), hx⟩, fun ⟨_, hx⟩ => hx⟩

theorem eq_error_iff (h : Settles refuses checks x)
    (hunique : ∀ check fault other, refuses check fault → refuses check other → fault = other) :
    x = .error fault ↔ FirstRefusal refuses checks fault := by
  cases x with
  | ok _ => exact iff_of_false nofun fun hfirst => hfirst.not_pass h
  | error other =>
    constructor
    · intro heq
      rw [← Except.error.inj heq]
      exact h
    · intro hfirst
      rw [FirstRefusal.unique hunique h hfirst]

end Settles

end TypedStore
