/-
  TypedStore/Number/Layout.lean
  =============================
  **How a decimal is laid out as text.**

  Numbers of ordinary size are written out with a point and at least one digit on either side of
  it; very small and very large ones are written with one digit before the point and a signed
  exponent. Where one layout ends and the other begins is a `Layout`.
-/
import TypedStore.Number.Shortest

namespace TypedStore

/-- Which numbers are written without an exponent. -/
structure Layout where
  /-- The least point that is positional; see `Decimal.point`. -/
  leastPoint : Int
  /-- The greatest point that is positional. -/
  greatestPoint : Int

namespace Layout

/-- Stored floats are positional from `0.00001` to below `10 ^ 16`. -/
def stored : Layout := ⟨-4, 16⟩

/-- The digits with the point at its place and a digit on either side of it. -/
def positional (digits : List Char) (point : Int) : List Char :=
  if point ≤ 0 then '0' :: '.' :: List.replicate (-point).toNat '0' ++ digits
  else if digits.length ≤ point.toNat then
    digits ++ List.replicate (point.toNat - digits.length) '0' ++ ['.', '0']
  else digits.take point.toNat ++ '.' :: digits.drop point.toNat

/-- One digit, the others after a point, and the exponent with its sign. -/
def scientific (digits : List Char) (point : Int) : List Char :=
  let fraction :=
    match digits.tail with
    | [] => []
    | rest => '.' :: rest
  let exponent := point - 1
  let sign := if exponent < 0 then '-' else '+'
  digits.take 1 ++ fraction ++ 'e' :: sign :: Nat.toDigits 10 exponent.natAbs

def write (layout : Layout) (d : Decimal) : List Char :=
  if d.coefficient = 0 then ['0', '.', '0']
  else if layout.leastPoint ≤ d.point ∧ d.point ≤ layout.greatestPoint then
    positional d.digits d.point
  else scientific d.digits d.point

/-- The text of a finite binary number: a sign if it is negative, and its shortest decimal. -/
def writeBinary (layout : Layout) (x : Binary64) : List Char :=
  (if x.isNegative then ['-'] else []) ++ layout.write (Decimal.shortest x.magnitude)

example : String.ofList (stored.write ⟨1, -5⟩) = "0.00001" ∧
    String.ofList (stored.write ⟨1, -6⟩) = "1e-6" ∧
    String.ofList (stored.write ⟨1, 15⟩) = "1000000000000000.0" ∧
    String.ofList (stored.write ⟨12, 15⟩) = "1.2e+16" ∧
    String.ofList (stored.write ⟨1234, -2⟩) = "12.34" := by decide +kernel

end Layout

end TypedStore
