/-
  TypedStore/Number/Decimal.lean
  ==============================
  **Decimal numbers, and the binary number nearest to one.**

  A `Decimal` is `coefficient * 10 ^ exponent`. One that is read from digits keeps no trailing
  zero in its coefficient, so `1.50`, `15e-1` and `0.15e1` are the same decimal. Its nearest
  binary number is found by exact arithmetic; an exponent so large or so small that the outcome
  is infinity or zero whatever the digits say is not worked out.
-/
import TypedStore.Number.Binary64

namespace TypedStore

structure Decimal where
  coefficient : Nat
  exponent : Int
deriving DecidableEq, Repr

namespace Decimal

def dropTrailingZeros (digits : List Char) : List Char :=
  (digits.reverse.dropWhile (· = '0')).reverse

/-- The number that the digits write, times `10 ^ exponent`. -/
def ofDigits (digits : List Char) (exponent : Int) : Decimal :=
  let kept := dropTrailingZeros digits
  ⟨Nat.ofDigitChars 10 kept 0, exponent + (digits.length - kept.length : Nat)⟩

def digits (d : Decimal) : List Char := Nat.toDigits 10 d.coefficient

/-- Where the point stands when it is counted from before the first digit: the number is at least
    `10 ^ (point - 1)` and less than `10 ^ point`, unless it is zero. -/
def point (d : Decimal) : Int := d.digits.length + d.exponent

def nearest (d : Decimal) : Nat :=
  if d.coefficient = 0 then 0
  else if 310 < d.point then Binary64.infinityBits
  else if d.point < -330 then 0
  else
    Binary64.nearestMagnitude (d.coefficient * Nat.pow 10 d.exponent.toNat)
      (Nat.pow 10 (-d.exponent).toNat)

example : ofDigits "1500".toList (-3) = ⟨15, -1⟩ := by decide +kernel
example : (ofDigits "000".toList 7).nearest = 0 := by decide +kernel
example : (⟨5, -324⟩ : Decimal).nearest = 1 ∧ (⟨2, -324⟩ : Decimal).nearest = 0 := by
  decide +kernel
example : (⟨17976931348623157, 292⟩ : Decimal).nearest + 1 = Binary64.infinityBits ∧
    (⟨17976931348623159, 292⟩ : Decimal).nearest = Binary64.infinityBits := by decide +kernel

end Decimal

end TypedStore
