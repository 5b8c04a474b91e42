/-
  TypedStore/Number/Shortest.lean
  ===============================
  **The shortest decimal that reads back as a given binary number.**

  For each count of digits, starting from one, the two decimals of that count around the number
  are tried, the one below and the one above. A decimal is accepted if its nearest binary number
  is the given one. The first count with an accepted decimal wins; of two accepted ones the nearer
  is taken, and of two equally near the one with an even last digit. Every count up to seventeen
  is tried, which is always enough; the exact decimal expansion stands behind them, so that what
  is returned reads back in any case (`nearest_shortest`, for expansions that do).
-/
import TypedStore.Number.Decimal

namespace TypedStore.Decimal

/-- The point of the positive number `n / d`: it is at least `10 ^ (point - 1)` and less than
    `10 ^ point`. -/
def pointOf (n d : Nat) : Int :=
  let guess : Int := (Nat.toDigits 10 n).length - (Nat.toDigits 10 d).length
  if d * Nat.pow 10 guess.toNat ≤ n * Nat.pow 10 (-guess).toNat then guess + 1 else guess

/-- The decimals on the grid of step `10 ^ exponent` around `n / d` that read back as
    `magnitude`, the preferred one first. -/
def candidates (magnitude n d : Nat) (exponent : Int) : List Decimal :=
  let n := n * Nat.pow 10 (-exponent).toNat
  let d := d * Nat.pow 10 exponent.toNat
  let below := n / d
  let ordered :=
    match compare (2 * (n % d)) d with
    | .lt => [below, below + 1]
    | .gt => [below + 1, below]
    | .eq => if below % 2 = 0 then [below, below + 1] else [below + 1, below]
  (ordered.map fun c => ofDigits (Nat.toDigits 10 c) exponent).filter (·.nearest = magnitude)

/-- The number exactly, with as many digits as that takes. -/
def exact (magnitude : Nat) : Decimal :=
  let exponent := Binary64.exponent magnitude
  let scaled :=
    Binary64.significand magnitude * Nat.pow 2 exponent.toNat * Nat.pow 5 (-exponent).toNat
  ofDigits (Nat.toDigits 10 scaled) (min exponent 0)

/-- The shortest decimal whose nearest binary number has this finite magnitude. -/
def shortest (magnitude : Nat) : Decimal :=
  if magnitude = 0 then ⟨0, 0⟩
  else
    let n := Binary64.numerator magnitude
    let d := Binary64.denominator magnitude
    let point := pointOf n d
    let found := (List.range' 1 17).findSome? fun count : Nat =>
      (candidates magnitude n d (point - count)).head?
    found.getD (exact magnitude)

theorem nearest_of_mem_candidates {magnitude n d : Nat} {exponent : Int} {c : Decimal}
    (h : c ∈ candidates magnitude n d exponent) : c.nearest = magnitude := by
  simpa using (List.mem_filter.1 h).2

/-- The shortest decimal reads back, provided the exact expansion does. -/
theorem nearest_shortest {magnitude : Nat} (h : (exact magnitude).nearest = magnitude) :
    (shortest magnitude).nearest = magnitude := by
  unfold shortest
  split
  · next hz => subst hz; rfl
  · dsimp only
    match hf : (List.range' 1 17).findSome? _ with
    | none => simpa [hf] using h
    | some c =>
      obtain ⟨count, _, hc⟩ := List.exists_of_findSome?_eq_some hf
      simpa [hf] using nearest_of_mem_candidates (List.mem_of_mem_head? hc)

example : shortest 0x3FB999999999999A = ⟨1, -1⟩ := by decide +kernel
example : shortest 1 = ⟨5, -324⟩ := by decide +kernel
example : shortest 0x7FEFFFFFFFFFFFFF = ⟨17976931348623157, 292⟩ := by decide +kernel

end TypedStore.Decimal
