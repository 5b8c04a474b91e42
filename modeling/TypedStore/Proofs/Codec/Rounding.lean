/-
  TypedStore/Proofs/Codec/Rounding.lean
  =====================================
  **Rounding a number that needs none.**

  Finite magnitudes stand for rational numbers (`Binary64.toRat`). Rounding such a number to the
  nearest magnitude gives the magnitude it came from (`nearestMagnitude_toRat`): the scale that is
  chosen for it is its own exponent, and at this scale it is an integer. Integers of sixty-four bits
  are rounded to finite magnitudes (`nearestMagnitude_int_lt`).
-/
import Mathlib
import TypedStore.Number.Binary64

namespace TypedStore.Binary64

theorem zpow_toNat (b : ℚ) (k : ℤ) : b ^ k = b ^ k.toNat / b ^ (-k).toNat := by
  rcases Int.le_total 0 k with hk | hk
  · rw [show (-k).toNat = 0 by omega, pow_zero, div_one, ← zpow_natCast, Int.toNat_of_nonneg hk]
  · rw [show k.toNat = 0 by omega, pow_zero, one_div, ← zpow_natCast, ← zpow_neg,
      Int.toNat_of_nonneg (by omega), neg_neg]

/-- Scaling both sides by powers of the base compares the quotient with a power of it. -/
theorem mul_pow_le_iff {n d b : Nat} (hd : 0 < d) (hb : 0 < b) (k : ℤ) :
    d * Nat.pow b k.toNat ≤ n * Nat.pow b (-k).toNat ↔ (b : ℚ) ^ k ≤ (n : ℚ) / d := by
  have hb' : (0 : ℚ) < b := by exact_mod_cast hb
  have hd' : (0 : ℚ) < d := by exact_mod_cast hd
  rw [zpow_toNat, div_le_div_iff₀ (pow_pos hb' _) hd', ← Nat.cast_le (α := ℚ)]
  push_cast [Nat.pow_eq]
  rw [mul_comm (d : ℚ)]

theorem log2_bounds {n : Nat} (hn : 0 < n) :
    (2 : ℚ) ^ (n.log2 : ℤ) ≤ n ∧ (n : ℚ) < (2 : ℚ) ^ ((n.log2 : ℤ) + 1) := by
  constructor
  · rw [zpow_natCast]
    exact_mod_cast Nat.log2_self_le hn.ne'
  · rw [show ((n.log2 : ℤ) + 1) = ((n.log2 + 1 : ℕ) : ℤ) by push_cast; rfl, zpow_natCast]
    exact_mod_cast Nat.lt_log2_self

/-- `floorLog2` finds the greatest power of two that the quotient reaches. -/
theorem floorLog2_bounds {n d : Nat} (hn : 0 < n) (hd : 0 < d) :
    (2 : ℚ) ^ floorLog2 n d ≤ (n : ℚ) / d ∧ (n : ℚ) / d < (2 : ℚ) ^ (floorLog2 n d + 1) := by
  obtain ⟨hn₁, hn₂⟩ := log2_bounds hn
  obtain ⟨hd₁, hd₂⟩ := log2_bounds hd
  have hd' : (0 : ℚ) < d := by exact_mod_cast hd
  have h2 : (0 : ℚ) < 2 := by norm_num
  unfold floorLog2
  set a : ℤ := ((n.log2 : ℕ) : ℤ)
  set b : ℤ := ((d.log2 : ℕ) : ℤ)
  simp only [mul_pow_le_iff hd (by norm_num : 0 < 2), Nat.cast_ofNat]
  split
  next h =>
    refine ⟨h, ?_⟩
    rw [div_lt_iff₀ hd']
    calc (n : ℚ) < 2 ^ (a + 1) := hn₂
      _ = 2 ^ (a - b + 1) * 2 ^ b := by rw [← zpow_add₀ h2.ne']; congr 1; ring
      _ ≤ 2 ^ (a - b + 1) * d := mul_le_mul_of_nonneg_left hd₁ (zpow_pos h2 _).le
  next h =>
    refine ⟨?_, by rw [sub_add_cancel]; exact not_le.1 h⟩
    rw [le_div_iff₀ hd']
    calc (2 : ℚ) ^ (a - b - 1) * d ≤ 2 ^ (a - b - 1) * 2 ^ (b + 1) :=
          mul_le_mul_of_nonneg_left hd₂.le (zpow_pos h2 _).le
      _ = 2 ^ a := by rw [← zpow_add₀ h2.ne']; congr 1; ring
      _ ≤ n := hn₁

/-- The rational number that a finite magnitude stands for. -/
def toRat (magnitude : Nat) : ℚ := significand magnitude * 2 ^ exponent magnitude

theorem exponent_ge (magnitude : Nat) : -1074 ≤ exponent magnitude := by
  unfold exponent
  split
  · exact le_refl _
  · next h =>
    have : 1 ≤ magnitude / hiddenBit := (Nat.one_le_div_iff (by decide)).2 (not_lt.1 h)
    omega

theorem significand_lt (magnitude : Nat) : significand magnitude < 2 * hiddenBit := by
  unfold significand
  have := Nat.mod_lt magnitude (show 0 < hiddenBit by decide)
  split <;> omega

theorem significand_pos {magnitude : Nat} (h : 0 < magnitude) : 0 < significand magnitude := by
  unfold significand
  split
  · exact h
  · exact Nat.add_pos_left (by decide) _

/-- A magnitude is its exponent field and its fraction. -/
theorem magnitude_eq (magnitude : Nat) :
    (exponent magnitude + 1074).toNat * hiddenBit + significand magnitude = magnitude := by
  unfold exponent significand
  split
  · simp
  · next h =>
    have hpos : 1 ≤ magnitude / hiddenBit := (Nat.one_le_div_iff (by decide)).2 (not_lt.1 h)
    have hdiv := Nat.div_add_mod magnitude hiddenBit
    have hfield : (((magnitude / hiddenBit : Nat) : ℤ) - 1075 + 1074).toNat =
        magnitude / hiddenBit - 1 := by omega
    rw [hfield, Nat.sub_mul, one_mul, mul_comm]
    have : hiddenBit ≤ hiddenBit * (magnitude / hiddenBit) := Nat.le_mul_of_pos_right _ hpos
    omega

theorem toRat_pos {magnitude : Nat} (h : 0 < magnitude) : 0 < toRat magnitude :=
  mul_pos (by exact_mod_cast significand_pos h) (zpow_pos (by norm_num) _)

theorem toRat_lt (magnitude : Nat) : toRat magnitude < 2 ^ (exponent magnitude + 53) := by
  have hs : (significand magnitude : ℚ) < 2 ^ (53 : ℤ) := by
    have : (significand magnitude : ℚ) < ((2 * hiddenBit : ℕ) : ℚ) := by
      exact_mod_cast significand_lt magnitude
    norm_num [hiddenBit] at this ⊢
    exact this
  rw [add_comm, zpow_add₀ (by norm_num)]
  exact mul_lt_mul_of_pos_right hs (zpow_pos (by norm_num) _)

theorem le_toRat {magnitude : Nat} (h : hiddenBit ≤ magnitude) :
    2 ^ (exponent magnitude + 52) ≤ toRat magnitude := by
  have hs : (2 : ℚ) ^ (52 : ℤ) ≤ significand magnitude := by
    have : ((hiddenBit : ℕ) : ℚ) ≤ significand magnitude := by
      rw [significand, if_neg (not_lt.2 h)]
      exact_mod_cast Nat.le_add_right _ _
    norm_num [hiddenBit] at this ⊢
    exact this
  rw [add_comm, zpow_add₀ (by norm_num)]
  exact mul_le_mul_of_nonneg_right hs (zpow_pos (by norm_num) _).le

theorem exponent_le {magnitude : Nat} (h : magnitude < infinityBits) :
    exponent magnitude ≤ 971 := by
  unfold exponent
  split
  · norm_num
  · have : magnitude / hiddenBit ≤ 2046 := by
      rw [← Nat.lt_succ_iff, Nat.div_lt_iff_lt_mul (by decide)]
      exact h
    omega

theorem toRat_lt_of_finite {magnitude : Nat} (h : magnitude < infinityBits) :
    toRat magnitude < 2 ^ (1024 : ℤ) := by
  have he := exponent_le h
  exact (toRat_lt magnitude).trans_le (zpow_le_zpow_right₀ (by norm_num) (by omega))

theorem le_toRat_of_pos {magnitude : Nat} (h : 0 < magnitude) :
    2 ^ (-1074 : ℤ) ≤ toRat magnitude := by
  have hs : (1 : ℚ) ≤ significand magnitude := by exact_mod_cast significand_pos h
  calc (2 : ℚ) ^ (-1074 : ℤ) ≤ 2 ^ exponent magnitude :=
        zpow_le_zpow_right₀ (by norm_num) (exponent_ge magnitude)
    _ ≤ significand magnitude * 2 ^ exponent magnitude :=
        le_mul_of_one_le_left (zpow_pos (by norm_num) _).le hs

/-- The scale at which a magnitude's number is rounded is its own exponent. -/
theorem scale_eq {magnitude n d : Nat} (hn : 0 < n) (hd : 0 < d)
    (h : (n : ℚ) / d = toRat magnitude) :
    max (-1074) (floorLog2 n d - 52) = exponent magnitude := by
  obtain ⟨hlow, hhigh⟩ := floorLog2_bounds hn hd
  rw [h] at hlow hhigh
  have hle : floorLog2 n d < exponent magnitude + 53 :=
    (zpow_lt_zpow_iff_right₀ (by norm_num)).1 (hlow.trans_lt (toRat_lt magnitude))
  have hge := exponent_ge magnitude
  by_cases hsub : magnitude < hiddenBit
  · have he : exponent magnitude = -1074 := if_pos hsub
    omega
  · have : exponent magnitude + 52 < floorLog2 n d + 1 :=
      (zpow_lt_zpow_iff_right₀ (by norm_num)).1 ((le_toRat (not_lt.1 hsub)).trans_lt hhigh)
    omega

theorem divNearest_mul (q : Nat) {d : Nat} (hd : 0 < d) : divNearest (q * d) d = q := by
  unfold divNearest
  rw [Nat.mul_mod_left, Nat.mul_div_cancel _ hd]
  have : compare (2 * 0) d = .lt := by rw [Nat.compare_eq_lt]; omega
  simp only [this]

/-- Rounding a number that is a magnitude's already gives that magnitude. -/
theorem nearestMagnitude_toRat {magnitude n d : Nat} (hm : 0 < magnitude)
    (hfinite : magnitude < infinityBits) (hd : 0 < d) (h : (n : ℚ) / d = toRat magnitude) :
    nearestMagnitude n d = magnitude := by
  have hd' : (0 : ℚ) < d := by exact_mod_cast hd
  have hn : 0 < n := by
    by_contra hzero
    obtain rfl : n = 0 := by omega
    have := toRat_pos hm
    rw [← h, Nat.cast_zero, zero_div] at this
    exact lt_irrefl _ this
  have hscale := scale_eq hn hd h
  -- the scaled quotient is the significand exactly, so nothing is rounded
  have hquot : n * Nat.pow 2 (-exponent magnitude).toNat =
      significand magnitude * (d * Nat.pow 2 (exponent magnitude).toNat) := by
    rw [div_eq_iff hd'.ne', toRat, zpow_toNat] at h
    have hp : (2 : ℚ) ^ (-exponent magnitude).toNat ≠ 0 := pow_ne_zero _ (by norm_num)
    have hq : ((n * Nat.pow 2 (-exponent magnitude).toNat : ℕ) : ℚ) =
        ((significand magnitude * (d * Nat.pow 2 (exponent magnitude).toNat) : ℕ) : ℚ) := by
      push_cast [Nat.pow_eq]
      rw [h]
      field_simp
    exact_mod_cast hq
  have hpos : 0 < d * Nat.pow 2 (exponent magnitude).toNat :=
    Nat.mul_pos hd (Nat.pow_pos (by norm_num))
  unfold nearestMagnitude
  rw [if_neg hn.ne']
  simp only [hscale, hquot, divNearest_mul _ hpos, magnitude_eq]
  exact Nat.min_eq_right hfinite.le

/-! ### Integers -/

theorem divNearest_le (n d : Nat) : divNearest n d ≤ n / d + 1 := by
  unfold divNearest
  dsimp only
  split
  · exact Nat.le_succ _
  · exact Nat.le_refl _
  · exact Nat.add_le_add_left (Nat.le_of_lt_succ (Nat.mod_lt _ (by decide))) _

theorem floorLog2_one {n : Nat} (hn : 0 < n) : floorLog2 n 1 = n.log2 := by
  have hlog : Nat.log2 1 = 0 := by decide
  have hle : 1 * Nat.pow 2 ((n.log2 : Int) - (Nat.log2 1 : Nat)).toNat ≤
      n * Nat.pow 2 (-((n.log2 : Int) - (Nat.log2 1 : Nat))).toNat := by
    rw [hlog]
    simp only [Nat.cast_zero, sub_zero, Int.toNat_natCast, one_mul]
    exact (Nat.log2_self_le hn.ne').trans (Nat.le_mul_of_pos_right _ (Nat.pow_pos (by decide)))
  unfold floorLog2
  simp only
  rw [if_pos hle, hlog]
  simp

/-- An integer of sixty-four bits is far from what rounds to infinity. -/
theorem nearestMagnitude_int_lt {n : Nat} (hn : n < 2 ^ 64) : nearestMagnitude n 1 < infinityBits := by
  unfold nearestMagnitude
  split
  · decide
  next hzero =>
  have hpos : 0 < n := Nat.pos_of_ne_zero hzero
  have hlog : n.log2 < 64 := (Nat.log2_lt hzero).2 hn
  have hlt : n < 2 ^ (n.log2 + 1) := Nat.lt_log2_self
  refine Nat.lt_of_le_of_lt (Nat.min_le_right _ _) ?_
  rw [floorLog2_one hpos]
  have hscale : max (-1074) ((n.log2 : Int) - 52) = (n.log2 : Int) - 52 := by omega
  simp only [hscale]
  -- Scaled, the integer has fifty-three bits.
  have hquot : n * Nat.pow 2 (-((n.log2 : Int) - 52)).toNat /
      (1 * Nat.pow 2 ((n.log2 : Int) - 52).toNat) < 2 ^ 53 := by
    rw [one_mul]
    apply Nat.div_lt_of_lt_mul
    simp only [Nat.pow_eq]
    calc n * 2 ^ (-((n.log2 : Int) - 52)).toNat
        < 2 ^ (n.log2 + 1) * 2 ^ (-((n.log2 : Int) - 52)).toNat :=
          Nat.mul_lt_mul_of_pos_right hlt (Nat.pow_pos (by decide))
      _ = 2 ^ ((n.log2 : Int) - 52).toNat * 2 ^ 53 := by
          rw [← pow_add, ← pow_add]
          congr 1
          omega
  have hround := divNearest_le (n * Nat.pow 2 (-((n.log2 : Int) - 52)).toNat)
    (1 * Nat.pow 2 ((n.log2 : Int) - 52).toNat)
  have hfield : ((n.log2 : Int) - 52 + 1074).toNat ≤ 1085 := by omega
  have hmul := Nat.mul_le_mul_right hiddenBit hfield
  simp only [hiddenBit, infinityBits] at hmul ⊢
  omega

end TypedStore.Binary64
