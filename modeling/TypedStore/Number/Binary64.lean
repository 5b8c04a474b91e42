/-
  TypedStore/Number/Binary64.lean
  ===============================
  **Floating-point numbers as their sixty-four bits.**

  A number is one sign bit and sixty-three bits of magnitude. The magnitudes below
  `infinityBits` are the finite ones and ascend with the number they stand for; `infinityBits`
  itself is infinity and everything above is no number (NaN). Nothing here computes with machine
  floats: the value of a finite magnitude is the exact `significand * 2 ^ exponent`.
-/

namespace TypedStore

/-- A binary floating-point number of sixty-four bits. -/
structure Binary64 where
  /-- Sign, exponent field and fraction, from the highest bit down. -/
  bits : UInt64
deriving DecidableEq, Repr

namespace Binary64

/-- The magnitude of infinity: every exponent bit set and no fraction. -/
def infinityBits : Nat := 0x7FF0000000000000

def signBit : Nat := 0x8000000000000000

/-- The weight of the lowest exponent bit, which is that of the hidden bit of a fraction. -/
def hiddenBit : Nat := 0x10000000000000

def magnitude (x : Binary64) : Nat := x.bits.toNat % signBit

def isNegative (x : Binary64) : Bool := signBit ≤ x.bits.toNat

def isFinite (x : Binary64) : Bool := x.magnitude < infinityBits

def isNaN (x : Binary64) : Bool := infinityBits < x.magnitude

def ofMagnitude (negative : Bool) (magnitude : Nat) : Binary64 :=
  ⟨UInt64.ofNat (magnitude + if negative then signBit else 0)⟩

/-- Equality of numbers: NaN equals nothing, and the two zeros are equal. -/
def sameNumber (x y : Binary64) : Bool :=
  !x.isNaN && !y.isNaN && (x == y || (x.magnitude == 0 && y.magnitude == 0))

/-! ### The number behind a magnitude -/

/-- The integer that is scaled: the fraction, with its hidden bit unless the number is subnormal. -/
def significand (magnitude : Nat) : Nat :=
  if magnitude < hiddenBit then magnitude else hiddenBit + magnitude % hiddenBit

def exponent (magnitude : Nat) : Int :=
  if magnitude < hiddenBit then -1074 else (magnitude / hiddenBit : Nat) - 1075

/-- The numerator of the number, over `denominator`. -/
def numerator (magnitude : Nat) : Nat :=
  significand magnitude * Nat.pow 2 (exponent magnitude).toNat

/-- The denominator of the number, a power of two. -/
def denominator (magnitude : Nat) : Nat := Nat.pow 2 (-exponent magnitude).toNat

/-! ### Rounding to nearest -/

/-- The integer nearest to `n / d`; of two equally near ones, the even one. -/
def divNearest (n d : Nat) : Nat :=
  let q := n / d
  match compare (2 * (n % d)) d with
  | .lt => q
  | .gt => q + 1
  | .eq => q + q % 2

/-- The exponent of the greatest power of two that is at most `n / d`. -/
def floorLog2 (n d : Nat) : Int :=
  let guess : Int := n.log2 - d.log2
  if d * Nat.pow 2 guess.toNat ≤ n * Nat.pow 2 (-guess).toNat then guess else guess - 1

/-- The magnitude nearest to `n / d`, ties to the even one; infinity from half a step above the
    greatest finite number on. -/
def nearestMagnitude (n d : Nat) : Nat :=
  if n = 0 then 0
  else
    let scale : Int := max (-1074) (floorLog2 n d - 52)
    min infinityBits
      ((scale + 1074).toNat * hiddenBit +
        divNearest (n * Nat.pow 2 (-scale).toNat) (d * Nat.pow 2 scale.toNat))

theorem magnitude_ofMagnitude {m : Nat} (negative : Bool) (h : m < signBit) :
    (ofMagnitude negative m).magnitude = m := by
  simp only [signBit] at h
  cases negative <;> simp only [magnitude, ofMagnitude, signBit, UInt64.toNat_ofNat'] <;>
    simp <;> omega

/-- Sign and magnitude determine the number. -/
theorem ofMagnitude_magnitude (x : Binary64) : ofMagnitude x.isNegative x.magnitude = x := by
  obtain ⟨bits⟩ := x
  have hb := bits.toNat_lt
  simp only [ofMagnitude, magnitude, isNegative, signBit, mk.injEq]
  apply UInt64.toNat_inj.1
  by_cases h : 0x8000000000000000 ≤ bits.toNat <;> simp only [h, UInt64.toNat_ofNat'] <;>
    simp <;> omega

theorem nearestMagnitude_le (n d : Nat) : nearestMagnitude n d ≤ infinityBits := by
  unfold nearestMagnitude
  split
  · decide
  · exact Nat.min_le_left ..

example : nearestMagnitude 1 10 = 0x3FB999999999999A := by decide +kernel
example : nearestMagnitude 9007199254740993 1 = nearestMagnitude 9007199254740992 1 := by
  decide +kernel
example : nearestMagnitude 1 (Nat.pow 2 1075) = 0 ∧ nearestMagnitude 3 (Nat.pow 2 1075) = 2 := by
  decide +kernel

end Binary64

end TypedStore
