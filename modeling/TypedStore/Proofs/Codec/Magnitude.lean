/-
  TypedStore/Proofs/Codec/Magnitude.lean
  ======================================
  **What integers of any size are read as.**

  The decimal digits of an integer are read as that integer only if it has sixty-four bits, signed or
  unsigned. A greater one is read as the nearest float, and from half a step above the greatest float
  on it is not read at all (`ofWord?_writeInt`, `ofWord?_writeInt_of_finite`,
  `ofWord?_writeInt_of_infinite`). The bound is `finiteBound`, where rounding to the even one of two
  equally near magnitudes begins to give infinity (`nearestMagnitude_int_lt_iff`). A text of more
  digits than are read exactly is far beyond it, so that what stands for the further digits does not
  matter (`nearest_decimal_lt_iff`).
-/
import TypedStore.Proofs.Codec.NumberText
import TypedStore.Proofs.Codec.Reading

namespace TypedStore.Binary64

/-! ### Integers that round to a finite magnitude -/

/-- Rounding stays below an even number just below the middle between it and the number before. -/
theorem divNearest_lt_iff {n d m : Nat} (hd : 0 < d) (hm : m % 2 = 0) :
    divNearest n d < m ↔ 2 * n + d < 2 * m * d := by
  have hn := Nat.div_add_mod n d
  have hr := Nat.mod_lt n hd
  -- With the quotient `q` and the remainder `r` the bound is a comparison of multiples of `d`.
  unfold divNearest
  dsimp only
  generalize n / d = q at *
  generalize n % d = r at *
  subst hn
  have hbelow : q + 1 < m → 2 * (d * q + r) + d < 2 * m * d := by
    intro h
    nlinarith [Nat.mul_le_mul_right d (show q + 2 ≤ m from h)]
  have habove : m ≤ q → ¬ 2 * (d * q + r) + d < 2 * m * d := by
    intro h
    nlinarith [Nat.mul_le_mul_right d h]
  have hbetween : q + 1 = m → (2 * (d * q + r) + d < 2 * m * d ↔ 2 * r < d) := by
    rintro rfl
    constructor
    · intro h
      nlinarith
    · intro h
      nlinarith
  rcases Nat.lt_trichotomy (q + 1) m with h | h | h
  · refine iff_of_true ?_ (hbelow h)
    split <;> omega
  · rw [hbetween h]
    split
    · next hlt =>
      have := Nat.compare_eq_lt.1 hlt
      omega
    · next hgt =>
      have := Nat.compare_eq_gt.1 hgt
      omega
    · next heq =>
      have := Nat.compare_eq_eq.1 heq
      omega
  · refine iff_of_false ?_ (habove (by omega))
    split <;> omega

/-- The least number that is read as infinity: half a step above the greatest float. -/
def finiteBound : Nat := 2 ^ 1024 - 2 ^ 970

/-- The bound as rounding at the scale of the greatest floats meets it. -/
theorem lt_finiteBound_iff {n : Nat} :
    n < finiteBound ↔ 2 * n + 2 ^ 971 < 2 * 2 ^ 53 * 2 ^ 971 := by
  unfold finiteBound
  omega

theorem nearestMagnitude_of_log2 {n e : Nat} (hlog : n.log2 = e + 52) :
    nearestMagnitude n 1 = min infinityBits ((e + 1074) * hiddenBit + divNearest n (2 ^ e)) := by
  have hzero : n ≠ 0 := by
    rintro rfl
    rw [Nat.log2_zero] at hlog
    omega
  have hscale : max (-1074) ((n.log2 : Int) - 52) = e := by omega
  rw [nearestMagnitude, if_neg hzero, floorLog2_one (Nat.pos_of_ne_zero hzero)]
  simp only [hscale]
  rw [show (-(e : Int)).toNat = 0 by omega, show ((e : Int) + 1074).toNat = e + 1074 by omega,
    Int.toNat_natCast, Nat.pow_eq, Nat.pow_eq, pow_zero, mul_one, one_mul]

theorem nearestMagnitude_int_lt_iff {n : Nat} :
    nearestMagnitude n 1 < infinityBits ↔ n < finiteBound := by
  by_cases hsmall : n < 2 ^ 64
  · refine iff_of_true (nearestMagnitude_int_lt hsmall) ?_
    exact hsmall.trans (by decide +kernel)
  have hzero : n ≠ 0 := by omega
  have hlog : 64 ≤ n.log2 := (Nat.le_log2 hzero).2 (not_lt.1 hsmall)
  obtain ⟨e, he⟩ : ∃ e, n.log2 = e + 52 := ⟨n.log2 - 52, by omega⟩
  have hlow : 2 ^ (e + 52) ≤ n := he ▸ Nat.log2_self_le hzero
  have hhigh : n < 2 ^ (e + 53) := by
    have := Nat.lt_log2_self (n := n)
    rwa [he] at this
  have hpos : 0 < 2 ^ e := Nat.pow_pos (by decide)
  rw [nearestMagnitude_of_log2 he, min_lt_iff, or_iff_right (lt_irrefl _)]
  rcases Nat.lt_trichotomy e 971 with hlt | rfl | hgt
  · have hquot : n / 2 ^ e < 2 ^ 53 := by
      apply Nat.div_lt_of_lt_mul
      rwa [← pow_add]
    have hround := divNearest_le n (2 ^ e)
    have hpow : 2 ^ (e + 53) ≤ finiteBound :=
      (Nat.pow_le_pow_right (by decide) (by omega)).trans
        (show 2 ^ (970 + 53) ≤ finiteBound by decide +kernel)
    refine iff_of_true ?_ (hhigh.trans_le hpow)
    simp only [hiddenBit, infinityBits]
    omega
  · rw [lt_finiteBound_iff, ← divNearest_lt_iff hpos (by decide)]
    simp only [hiddenBit, infinityBits]
    omega
  · have hround : ¬ divNearest n (2 ^ e) < 2 ^ 52 := by
      rw [divNearest_lt_iff hpos (by decide)]
      rw [pow_add] at hlow
      nlinarith
    have hbound : finiteBound ≤ 2 ^ (e + 52) := by
      refine (Nat.sub_le _ _).trans (pow_le_pow_right₀ ?_ ?_)
      · decide
      · omega
    refine iff_of_false ?_ (not_lt.2 (hbound.trans hlow))
    simp only [hiddenBit, infinityBits]
    omega

theorem isFinite_ofMagnitude (negative : Bool) {magnitude : Nat} (h : magnitude ≤ infinityBits) :
    (ofMagnitude negative magnitude).isFinite ↔ magnitude < infinityBits := by
  have hlt : magnitude < signBit := h.trans_lt (by decide)
  rw [isFinite, magnitude_ofMagnitude negative hlt, decide_eq_true_eq]

end TypedStore.Binary64

namespace TypedStore.Decimal

open Binary64

/-! ### Decimals that are integers -/

theorem nearest_le (d : Decimal) : d.nearest ≤ infinityBits := by
  unfold nearest
  split
  · exact Nat.zero_le _
  split
  · exact le_rfl
  split
  · exact Nat.zero_le _
  · exact nearestMagnitude_le _ _

theorem nearest_of_le_toRat {d : Decimal} (h : (10 : ℚ) ^ 310 ≤ toRat d) :
    d.nearest = infinityBits := by
  have hc : d.coefficient ≠ 0 := by
    intro hzero
    rw [toRat, hzero, Nat.cast_zero, zero_mul] at h
    exact absurd h (not_le.2 (by positivity))
  obtain ⟨-, hhigh⟩ := toRat_bounds hc
  have hpoint : (310 : ℤ) < d.point := by
    refine (zpow_lt_zpow_iff_right₀ (a := (10 : ℚ)) (by norm_num)).1 ?_
    exact_mod_cast h.trans_lt hhigh
  rw [nearest, if_neg hc, if_pos hpoint]

theorem nearest_lt_infinity_iff {d : Decimal} {n : Nat} (hn : n ≠ 0) (hexp : 0 ≤ d.exponent)
    (h : toRat d = n) : d.nearest < infinityBits ↔ n < finiteBound := by
  have hscale : (-d.exponent).toNat = 0 := by omega
  have hproduct : d.coefficient * Nat.pow 10 d.exponent.toNat = n := by
    rw [toRat_eq_div, hscale, Nat.pow_eq, Nat.pow_eq, pow_zero, Nat.cast_one, div_one] at h
    exact_mod_cast h
  have hc : d.coefficient ≠ 0 := by
    intro hzero
    rw [hzero, Nat.zero_mul] at hproduct
    exact hn hproduct.symm
  by_cases hlarge : 10 ^ 310 ≤ n
  · have hrat : (10 : ℚ) ^ 310 ≤ toRat d := by
      rw [h]
      exact_mod_cast hlarge
    rw [nearest_of_le_toRat hrat]
    exact iff_of_false (lt_irrefl _) (not_lt.2 (le_trans (by decide +kernel) hlarge))
  · obtain ⟨hlow, -⟩ := toRat_bounds hc
    have hpoint : ¬ 310 < d.point := by
      intro hlt
      have hten : (10 : ℚ) ^ (310 : ℤ) ≤ 10 ^ (d.point - 1) :=
        zpow_le_zpow_right₀ (by norm_num) (by omega)
      have hge : ((10 ^ 310 : ℕ) : ℚ) ≤ n := by
        rw [← h]
        exact_mod_cast hten.trans hlow
      exact hlarge (Nat.cast_le.1 hge)
    have hlower : ¬ d.point < -330 := by
      rw [point, digits]
      omega
    rw [nearest, if_neg hc, if_neg hpoint, if_neg hlower, hproduct, hscale]
    exact nearestMagnitude_int_lt_iff

end TypedStore.Decimal

namespace TypedStore.Json

open Binary64

namespace NumberText

/-- Digits of which the first is not zero write a number of that many digits. -/
theorem pow_le_ofDigitChars {head : Char} {tail : List Char} (hdigit : head.isDigit)
    (hhead : head ≠ '0') : 10 ^ tail.length ≤ Nat.ofDigitChars 10 (head :: tail) 0 := by
  have hvalue := Char.isDigit_iff_toNat.1 hdigit
  have hne : head.toNat ≠ '0'.toNat := fun h => hhead (Char.toNat_inj.1 h)
  simp only [Char.reduceToNat] at hvalue hne
  rw [Nat.ofDigitChars_cons, Nat.ofDigitChars_eq_ofDigitChars_zero]
  refine le_trans ?_ (Nat.le_add_right _ _)
  refine Nat.le_mul_of_pos_right _ ?_
  simp only [Char.reduceToNat]
  omega

/-- An integer's digits round to a finite magnitude if the integer does. -/
theorem nearest_decimal_lt_iff (negative : Bool) {n : Nat} (hn : n ≠ 0) :
    (decimal ⟨negative, Nat.toDigits 10 n, [], none⟩).nearest < infinityBits ↔
      n < finiteBound := by
  obtain ⟨head, tail, hhead, hdigit, hdigits⟩ := Decimal.toDigits_head hn
  have hvalue : Nat.ofDigitChars 10 (head :: tail) 0 = n := by
    rw [← hdigits, Nat.ofDigitChars_ten_toDigits]
  have hdrop : (Nat.toDigits 10 n ++ Decimal.dropTrailingZeros []).dropWhile (· = '0') =
      head :: tail := by
    rw [hdigits]
    simp [Decimal.dropTrailingZeros, hhead]
  have hexponent : (none : Option Int).getD 0 - (Decimal.dropTrailingZeros []).length = 0 := rfl
  simp only [decimal, hdrop, hexponent]
  split
  · obtain ⟨k, hexp, -⟩ := Decimal.ofDigits_eq (head :: tail) 0
    refine Decimal.nearest_lt_infinity_iff hn (by omega) ?_
    rw [Decimal.toRat_ofDigits, hvalue, zpow_zero, mul_one]
  · next hlong =>
    have hlength : exactDigits ≤ tail.length := by
      rw [List.length_cons] at hlong
      omega
    -- Both the digits that are kept and the whole number reach that power of ten.
    have hlen : (tail.take (exactDigits - 1) ++ ['1']).length = exactDigits := by
      rw [List.length_append, List.length_take, List.length_singleton]
      exact congrArg (· + 1) (Nat.min_eq_left ((Nat.pred_le _).trans hlength))
    have hkept : 10 ^ exactDigits ≤
        Nat.ofDigitChars 10 ((head :: tail).take exactDigits ++ ['1']) 0 := by
      have hpow := @pow_le_ofDigitChars head (tail.take (exactDigits - 1) ++ ['1']) hdigit hhead
      rwa [hlen] at hpow
    have hwhole : 10 ^ exactDigits ≤ n :=
      (Nat.pow_le_pow_right (by decide) hlength).trans
        ((pow_le_ofDigitChars hdigit hhead).trans_eq hvalue)
    rw [Decimal.nearest_of_le_toRat]
    · refine iff_of_false (lt_irrefl _) (not_lt.2 (le_trans ?_ hwhole))
      decide +kernel
    · rw [Decimal.toRat_ofDigits]
      calc (10 : ℚ) ^ 310 ≤ 10 ^ exactDigits := pow_le_pow_right₀ (by norm_num) (by decide)
        _ ≤ Nat.ofDigitChars 10 ((head :: tail).take exactDigits ++ ['1']) 0 := by
          exact_mod_cast hkept
        _ ≤ _ := le_mul_of_one_le_right (Nat.cast_nonneg _)
          (one_le_zpow₀ (by norm_num) (by omega))

end NumberText

/-! ### The word of an integer -/

/-- What is written as a number is none of the literal names. -/
theorem ofWord?_of_ofChars? {word : List Char} {t : NumberText}
    (h : NumberText.ofChars? word = some t) :
    ofWord? word = (Number.ofText? t).map .number := by
  have hne {name : List Char} (hname : NumberText.ofChars? name = none) : word ≠ name := by
    rintro rfl
    rw [hname] at h
    cases h
  rw [ofWord?, if_neg (hne (by decide +kernel)), if_neg (hne (by decide +kernel)),
    if_neg (hne (by decide +kernel)), numberOfWord?, h, Option.bind_some]

variable {n : Int}

/-- An integer beyond sixty-four bits is not kept as an integer. -/
theorem ofText?_of_wide (h : ¬ (-0x8000000000000000 ≤ n ∧ n < 0x10000000000000000)) :
    Number.ofText? ⟨n < 0, Nat.toDigits 10 n.natAbs, [], none⟩ =
      Number.ofFloat? (.ofMagnitude (n < 0)
        (NumberText.decimal ⟨n < 0, Nat.toDigits 10 n.natAbs, [], none⟩).nearest) := by
  have hnone : Number.intOfText? ⟨n < 0, Nat.toDigits 10 n.natAbs, [], none⟩ = none := by
    simp only [Number.intOfText?, and_self, ↓reduceIte, Nat.ofDigitChars_ten_toDigits,
      decide_eq_true_eq]
    split
    · rw [if_neg (by omega), Number.ofInt?, dif_neg (by omega)]
    · rw [Number.ofInt?, dif_neg (by omega)]
  rw [Number.ofText?, hnone, Option.none_or]

/-- An integer of sixty-four bits is read as itself. -/
theorem ofWord?_writeInt (h : -0x8000000000000000 ≤ n ∧ n < 0x10000000000000000) :
    ofWord? (Number.writeInt n) = some (.number (.int ⟨n, h⟩)) :=
  ofWord?_write (.int ⟨n, h⟩)

/-- A wider one that rounds to a finite magnitude is read as a float. -/
theorem ofWord?_writeInt_of_finite (h : ¬ (-0x8000000000000000 ≤ n ∧ n < 0x10000000000000000))
    (hfinite : n.natAbs < finiteBound) :
    ∃ x, ofWord? (Number.writeInt n) = some (.number (.float x)) := by
  have hx := (isFinite_ofMagnitude (n < 0) (Decimal.nearest_le _)).2
    ((NumberText.nearest_decimal_lt_iff (n < 0) (show n.natAbs ≠ 0 by omega)).2 hfinite)
  rw [ofWord?_of_ofChars? (ofChars?_writeInt n), ofText?_of_wide h, Number.ofFloat?, dif_pos hx]
  exact ⟨_, rfl⟩

/-- One that rounds to infinity is not read. -/
theorem ofWord?_writeInt_of_infinite (h : ¬ (-0x8000000000000000 ≤ n ∧ n < 0x10000000000000000))
    (hinfinite : ¬ n.natAbs < finiteBound) : ofWord? (Number.writeInt n) = none := by
  have hx := mt (isFinite_ofMagnitude (n < 0) (Decimal.nearest_le _)).1
    (mt (NumberText.nearest_decimal_lt_iff (n < 0) (show n.natAbs ≠ 0 by omega)).1 hinfinite)
  rw [ofWord?_of_ofChars? (ofChars?_writeInt n), ofText?_of_wide h, Number.ofFloat?, dif_neg hx]
  rfl

end TypedStore.Json
