/-
  TypedStore/Proofs/Codec/Shortest.lean
  =====================================
  **Shortest decimals read back.**

  The exact expansion of a finite magnitude has it as its nearest (`toRat_exact`,
  `nearest_of_toRat_eq`), so the shortest decimal has it too (`nearest_shortest_of_finite`). It
  ends in no zero and has fewer digits than a reader tells apart.
-/
import TypedStore.Number.Shortest
import TypedStore.Proofs.Codec.Rounding

namespace TypedStore.Decimal

/-! ### Digits -/

theorem dropTrailingZeros_append_zeros (digits : List Char) (k : Nat) :
    dropTrailingZeros (digits ++ List.replicate k '0') = dropTrailingZeros digits := by
  unfold dropTrailingZeros
  rw [List.reverse_append, List.reverse_replicate]
  simp

theorem dropTrailingZeros_concat {digits : List Char} {c : Char} (h : c ≠ '0') :
    dropTrailingZeros (digits ++ [c]) = digits ++ [c] := by
  simp [dropTrailingZeros, h]

/-- Digits are those that are kept, which end in no zero, and zeros. -/
theorem eq_dropTrailingZeros_append (digits : List Char) :
    ∃ k, digits = dropTrailingZeros digits ++ List.replicate k '0' ∧
      (dropTrailingZeros digits = [] ∨ ∃ init c, c ≠ '0' ∧ dropTrailingZeros digits = init ++ [c]) := by
  induction digits using List.reverseRecOn with
  | nil => exact ⟨0, rfl, .inl rfl⟩
  | append_singleton digits c ih =>
    by_cases hc : c = '0'
    · obtain ⟨k, hk, hlast⟩ := ih
      subst hc
      have hdrop : dropTrailingZeros (digits ++ ['0']) = dropTrailingZeros digits :=
        dropTrailingZeros_append_zeros digits 1
      rw [hdrop]
      refine ⟨k + 1, ?_, hlast⟩
      rw [List.replicate_succ', ← List.append_assoc, ← hk]
    · rw [dropTrailingZeros_concat hc]
      exact ⟨0, by simp, .inr ⟨digits, c, hc, rfl⟩⟩

theorem ofDigitChars_concat (digits : List Char) (c : Char) :
    Nat.ofDigitChars 10 (digits ++ [c]) 0 =
      10 * Nat.ofDigitChars 10 digits 0 + (c.toNat - '0'.toNat) := by
  rw [Nat.ofDigitChars_append, Nat.ofDigitChars_cons, Nat.ofDigitChars_nil]

/-- Dropping zeros moves them into the exponent. -/
theorem ofDigits_eq (digits : List Char) (exponent : ℤ) :
    ∃ k : Nat, (ofDigits digits exponent).exponent = exponent + k ∧
      (ofDigits digits exponent).coefficient * 10 ^ k = Nat.ofDigitChars 10 digits 0 := by
  obtain ⟨k, hk, -⟩ := eq_dropTrailingZeros_append digits
  have hlen := congrArg List.length hk
  rw [List.length_append, List.length_replicate] at hlen
  refine ⟨k, ?_, ?_⟩
  · simp only [ofDigits]
    omega
  · simp only [ofDigits]
    conv_rhs => rw [hk]
    rw [Nat.ofDigitChars_append, Nat.ofDigitChars_replicate_zero, mul_comm]

/-- The coefficient that is read from digits does not end in a zero, unless it is zero. -/
theorem ofDigits_coefficient_mod {digits : List Char} (exponent : ℤ)
    (hdigits : ∀ c ∈ digits, c.isDigit) (hne : Nat.ofDigitChars 10 digits 0 ≠ 0) :
    (ofDigits digits exponent).coefficient % 10 ≠ 0 := by
  obtain ⟨k, hk, hempty | ⟨init, c, hc, hlast⟩⟩ := eq_dropTrailingZeros_append digits
  · refine absurd ?_ hne
    rw [hk, hempty, List.nil_append, Nat.ofDigitChars_replicate_zero, Nat.mul_zero]
  · have hmem : c ∈ digits := by
      rw [hk, hlast]
      simp
    have hdigit := Char.isDigit_iff_toNat.1 (hdigits c hmem)
    have hzero : c.toNat ≠ '0'.toNat := fun h => hc (Char.toNat_inj.1 h)
    simp only [ofDigits, hlast, ofDigitChars_concat]
    simp only [Char.reduceToNat] at hdigit hzero ⊢
    omega

theorem toDigits_last {c : Nat} (h : c % 10 ≠ 0) :
    ∃ init last, last ≠ '0' ∧ Nat.toDigits 10 c = init ++ [last] := by
  rw [Nat.toDigits_eq_if (by norm_num)]
  split
  next hlt =>
    refine ⟨[], Nat.digitChar c, ?_, rfl⟩
    simp only [ne_eq, Nat.digitChar_eq_zero]
    omega
  next => exact ⟨_, _, by simpa using h, rfl⟩

theorem toDigits_head {c : Nat} (h : c ≠ 0) :
    ∃ head tail, head ≠ '0' ∧ head.isDigit ∧ Nat.toDigits 10 c = head :: tail := by
  induction c using Nat.strong_induction_on with
  | _ c ih =>
    rw [Nat.toDigits_eq_if (by norm_num)]
    split
    next hlt => exact ⟨_, [], by simpa using h, by simpa using hlt, rfl⟩
    next hge =>
      obtain ⟨head, tail, hhead, hdigit, htail⟩ := ih (c / 10) (by omega) (by omega)
      exact ⟨head, tail ++ [Nat.digitChar (c % 10)], hhead, hdigit, by rw [htail]; rfl⟩

/-! ### The number of a decimal -/

/-- The rational number that a decimal stands for. -/
def toRat (d : Decimal) : ℚ := d.coefficient * 10 ^ d.exponent

theorem toRat_eq_div (d : Decimal) :
    toRat d = ((d.coefficient * Nat.pow 10 d.exponent.toNat : ℕ) : ℚ) /
      ((Nat.pow 10 (-d.exponent).toNat : ℕ) : ℚ) := by
  rw [toRat, Binary64.zpow_toNat]
  push_cast [Nat.pow_eq]
  ring

theorem toRat_ofDigits (digits : List Char) (exponent : ℤ) :
    toRat (ofDigits digits exponent) = Nat.ofDigitChars 10 digits 0 * 10 ^ exponent := by
  obtain ⟨k, hexp, hcoeff⟩ := ofDigits_eq digits exponent
  rw [toRat, hexp, ← hcoeff, zpow_add₀ (by norm_num), zpow_natCast]
  push_cast
  ring

theorem length_digits_le {c k : Nat} (hk : 0 < k) (h : c < 10 ^ k) :
    (Nat.toDigits 10 c).length ≤ k :=
  (Nat.length_toDigits_le_iff (by norm_num) hk).2 h

theorem lt_pow_length (c : Nat) : c < 10 ^ (Nat.toDigits 10 c).length :=
  (Nat.length_toDigits_le_iff (by norm_num) Nat.length_toDigits_pos).1 le_rfl

theorem pow_length_le {c : Nat} (h : c ≠ 0) : 10 ^ ((Nat.toDigits 10 c).length - 1) ≤ c := by
  by_contra hlt
  have hpos := Nat.length_toDigits_pos (b := 10) (n := c)
  by_cases hone : (Nat.toDigits 10 c).length = 1
  · rw [hone, Nat.sub_self, pow_zero] at hlt
    omega
  · have := length_digits_le (c := c) (k := (Nat.toDigits 10 c).length - 1) (by omega) (by omega)
    omega

/-- The point of a decimal is where its number lies between powers of ten. -/
theorem toRat_bounds {d : Decimal} (h : d.coefficient ≠ 0) :
    (10 : ℚ) ^ (d.point - 1) ≤ toRat d ∧ toRat d < 10 ^ d.point := by
  have hpos := Nat.length_toDigits_pos (b := 10) (n := d.coefficient)
  have hz : (0 : ℚ) < 10 ^ d.exponent := zpow_pos (by norm_num) _
  constructor
  · rw [point, toRat, show (d.digits.length : ℤ) + d.exponent - 1 =
      ((d.digits.length - 1 : ℕ) : ℤ) + d.exponent by rw [digits]; omega,
      zpow_add₀ (by norm_num), zpow_natCast]
    refine mul_le_mul_of_nonneg_right ?_ hz.le
    exact_mod_cast pow_length_le h
  · rw [point, toRat, zpow_add₀ (by norm_num), zpow_natCast]
    refine mul_lt_mul_of_pos_right ?_ hz
    exact_mod_cast lt_pow_length d.coefficient

/-- A decimal that stands for a magnitude's number has that magnitude as its nearest. -/
theorem nearest_of_toRat_eq {d : Decimal} {magnitude : Nat} (hm : 0 < magnitude)
    (hfinite : magnitude < Binary64.infinityBits) (h : toRat d = Binary64.toRat magnitude) :
    d.nearest = magnitude := by
  have hpos := Binary64.toRat_pos hm
  have hc : d.coefficient ≠ 0 := by
    intro hzero
    rw [← h, toRat, hzero, Nat.cast_zero, zero_mul] at hpos
    exact lt_irrefl _ hpos
  obtain ⟨hlow, hhigh⟩ := toRat_bounds hc
  have hten : (1 : ℚ) < 10 := by norm_num
  rw [h] at hlow hhigh
  have hupper : ¬ 310 < d.point := by
    intro hlt
    have hle : (10 : ℚ) ^ (310 : ℤ) ≤ 10 ^ (d.point - 1) :=
      zpow_le_zpow_right₀ hten.le (by omega)
    have hmax := Binary64.toRat_lt_of_finite hfinite
    have : (2 : ℚ) ^ (1024 : ℤ) ≤ 10 ^ (310 : ℤ) := by
      exact_mod_cast (by decide +kernel : 2 ^ 1024 ≤ 10 ^ 310)
    exact absurd (hle.trans hlow) (not_le.2 (hmax.trans_le this))
  have hlower : ¬ d.point < -330 := by
    intro hlt
    have hle : (10 : ℚ) ^ d.point ≤ 10 ^ (-330 : ℤ) := zpow_le_zpow_right₀ hten.le hlt.le
    have hmin := Binary64.le_toRat_of_pos hm
    have : (10 : ℚ) ^ (-330 : ℤ) ≤ 2 ^ (-1074 : ℤ) := by
      rw [zpow_neg, zpow_neg]
      refine inv_anti₀ (zpow_pos (by norm_num) _) ?_
      exact_mod_cast (by decide +kernel : 2 ^ 1074 ≤ 10 ^ 330)
    exact absurd (hhigh.trans_le hle) (not_lt.2 (this.trans hmin))
  unfold nearest
  rw [if_neg hc, if_neg hupper, if_neg hlower]
  refine Binary64.nearestMagnitude_toRat hm hfinite (Nat.pow_pos (by norm_num)) ?_
  rw [← h, toRat_eq_div]

theorem toRat_exact (magnitude : Nat) : toRat (exact magnitude) = Binary64.toRat magnitude := by
  unfold exact
  simp only [toRat_ofDigits, Nat.ofDigitChars_ten_toDigits]
  rw [Binary64.toRat]
  push_cast [Nat.pow_eq]
  rcases Int.le_total 0 (Binary64.exponent magnitude) with he | he
  · rw [min_eq_right he, show (-Binary64.exponent magnitude).toNat = 0 by omega,
      ← zpow_natCast, Int.toNat_of_nonneg he]
    simp
  · have hfive : (5 : ℚ) ^ (-Binary64.exponent magnitude).toNat =
        5 ^ (-Binary64.exponent magnitude) := by
      rw [← zpow_natCast, Int.toNat_of_nonneg (by omega)]
    have hten : (10 : ℚ) ^ Binary64.exponent magnitude =
        2 ^ Binary64.exponent magnitude * 5 ^ Binary64.exponent magnitude := by
      rw [← mul_zpow]
      norm_num
    rw [min_eq_left he, show (Binary64.exponent magnitude).toNat = 0 by omega, hfive, hten,
      pow_zero, mul_one, zpow_neg]
    field_simp

/-- The shortest decimal of a finite magnitude has it as its nearest. -/
theorem nearest_shortest_of_finite {magnitude : Nat} (h : magnitude < Binary64.infinityBits) :
    (shortest magnitude).nearest = magnitude := by
  rcases Nat.eq_zero_or_pos magnitude with rfl | hpos
  · rfl
  · exact nearest_shortest (nearest_of_toRat_eq hpos h (toRat_exact magnitude))


/-! ### How many digits a shortest decimal has -/

theorem coefficient_ofDigits_le (c : Nat) (exponent : ℤ) :
    (ofDigits (Nat.toDigits 10 c) exponent).coefficient ≤ c := by
  obtain ⟨k, -, hcoeff⟩ := ofDigits_eq (Nat.toDigits 10 c) exponent
  rw [Nat.ofDigitChars_ten_toDigits] at hcoeff
  calc (ofDigits (Nat.toDigits 10 c) exponent).coefficient
      ≤ (ofDigits (Nat.toDigits 10 c) exponent).coefficient * 10 ^ k :=
        Nat.le_mul_of_pos_right _ (by positivity)
    _ = c := hcoeff

theorem quotient_lt_pointOf (n : Nat) {d : Nat} (hd : 0 < d) :
    (n : ℚ) / d < 10 ^ (pointOf n d + 1) := by
  have hd' : (0 : ℚ) < d := by exact_mod_cast hd
  have hlen := Nat.length_toDigits_pos (b := 10) (n := d)
  set a : ℤ := (((Nat.toDigits 10 n).length : ℕ) : ℤ) with ha
  set b : ℤ := (((Nat.toDigits 10 d).length : ℕ) : ℤ) with hb
  have hguess : a - b ≤ pointOf n d := by
    unfold pointOf
    simp only [← ha, ← hb]
    split <;> omega
  have hnum : (n : ℚ) < 10 ^ a := by
    rw [ha, zpow_natCast]
    exact_mod_cast lt_pow_length n
  have hden : (10 : ℚ) ^ (b - 1) ≤ d := by
    rw [show b - 1 = (((Nat.toDigits 10 d).length - 1 : ℕ) : ℤ) by omega, zpow_natCast]
    exact_mod_cast pow_length_le hd.ne'
  rw [div_lt_iff₀ hd']
  calc (n : ℚ) < 10 ^ a := hnum
    _ = 10 ^ (a - b + 1) * 10 ^ (b - 1) := by
        rw [← zpow_add₀ (by norm_num)]
        congr 1
        ring
    _ ≤ 10 ^ (pointOf n d + 1) * d := by
        refine mul_le_mul ?_ hden (by positivity) (by positivity)
        exact zpow_le_zpow_right₀ (by norm_num) (by omega)

/-- Of the decimals that are tried with some count of digits none has many more. -/
theorem candidate_lt {magnitude n d : Nat} (hd : 0 < d) {count : Nat} {c : Decimal}
    (h : c ∈ candidates magnitude n d (pointOf n d - count)) :
    c.coefficient < 10 ^ (count + 2) := by
  set x : ℤ := pointOf n d - count with hx
  have hpos : 0 < d * Nat.pow 10 x.toNat := Nat.mul_pos hd (Nat.pow_pos (by norm_num))
  have hbelow : n * Nat.pow 10 (-x).toNat / (d * Nat.pow 10 x.toNat) < 10 ^ (count + 1) := by
    rw [Nat.div_lt_iff_lt_mul hpos]
    have hquot := quotient_lt_pointOf n hd
    rw [show pointOf n d + 1 = x + ((count + 1 : ℕ) : ℤ) by push_cast; omega,
      zpow_add₀ (by norm_num), zpow_natCast, Binary64.zpow_toNat,
      div_lt_iff₀ (by exact_mod_cast hd), div_mul_eq_mul_div, div_mul_eq_mul_div,
      lt_div_iff₀ (by positivity)] at hquot
    have hcast : ((n * Nat.pow 10 (-x).toNat : ℕ) : ℚ) <
        ((10 ^ (count + 1) * (d * Nat.pow 10 x.toNat) : ℕ) : ℚ) := by
      push_cast [Nat.pow_eq]
      linarith
    exact_mod_cast hcast
  have hle : ∀ c' ≤ n * Nat.pow 10 (-x).toNat / (d * Nat.pow 10 x.toNat) + 1,
      (ofDigits (Nat.toDigits 10 c') x).coefficient < 10 ^ (count + 2) := by
    intro c' hc'
    have hstep : 10 ^ (count + 1) < 10 ^ (count + 2) := Nat.pow_lt_pow_right (by norm_num) (by omega)
    have := coefficient_ofDigits_le c' x
    omega
  obtain ⟨hmem, -⟩ := List.mem_filter.1 h
  obtain ⟨c', hc', rfl⟩ := List.mem_map.1 hmem
  refine hle c' ?_
  split at hc'
  · simp only [List.mem_cons, List.not_mem_nil, or_false] at hc'
    omega
  · simp only [List.mem_cons, List.not_mem_nil, or_false] at hc'
    omega
  · split at hc' <;>
    · simp only [List.mem_cons, List.not_mem_nil, or_false] at hc'
      omega

theorem exact_lt {magnitude : Nat} (h : magnitude < Binary64.infinityBits) :
    (exact magnitude).coefficient < 10 ^ 767 := by
  refine lt_of_le_of_lt (coefficient_ofDigits_le _ _) ?_
  have hs : Binary64.significand magnitude < 2 ^ 53 := Binary64.significand_lt magnitude
  have hlow := Binary64.exponent_ge magnitude
  have hhigh := Binary64.exponent_le h
  have htwo : 2 ^ (Binary64.exponent magnitude).toNat ≤ 2 ^ 971 :=
    pow_le_pow_right₀ (by norm_num) (by omega)
  have hfive : 5 ^ (-Binary64.exponent magnitude).toNat ≤ 5 ^ 1074 :=
    pow_le_pow_right₀ (by norm_num) (by omega)
  rcases Int.le_total 0 (Binary64.exponent magnitude) with he | he
  · rw [show (-Binary64.exponent magnitude).toNat = 0 by omega, Nat.pow_eq, Nat.pow_eq, pow_zero,
      mul_one]
    calc Binary64.significand magnitude * 2 ^ (Binary64.exponent magnitude).toNat
        < 2 ^ 53 * 2 ^ 971 := Nat.mul_lt_mul_of_lt_of_le hs htwo (by positivity)
      _ ≤ 10 ^ 767 := by decide +kernel
  · rw [show (Binary64.exponent magnitude).toNat = 0 by omega, Nat.pow_eq, Nat.pow_eq, pow_zero,
      mul_one]
    calc Binary64.significand magnitude * 5 ^ (-Binary64.exponent magnitude).toNat
        < 2 ^ 53 * 5 ^ 1074 := Nat.mul_lt_mul_of_lt_of_le hs hfive (by positivity)
      _ ≤ 10 ^ 767 := by decide +kernel

/-- A shortest decimal is one of those tried, with at most seventeen digits asked for, or the exact
    expansion. -/
theorem shortest_cases {magnitude : Nat} (h : 0 < magnitude) :
    (∃ count : Nat, count ≤ 17 ∧ shortest magnitude ∈
      candidates magnitude (Binary64.numerator magnitude) (Binary64.denominator magnitude)
        (pointOf (Binary64.numerator magnitude) (Binary64.denominator magnitude) - count)) ∨
      shortest magnitude = exact magnitude := by
  unfold shortest
  rw [if_neg h.ne']
  dsimp only
  match hf : (List.range' 1 17).findSome? _ with
  | none => exact .inr rfl
  | some c =>
    obtain ⟨count, hcount, hc⟩ := List.exists_of_findSome?_eq_some hf
    refine .inl ⟨count, ?_, List.mem_of_mem_head? hc⟩
    have := List.mem_range'_1.1 hcount
    omega

/-- A shortest decimal has few enough digits to be read digit by digit. -/
theorem length_digits_shortest {magnitude : Nat} (h : 0 < magnitude)
    (hfinite : magnitude < Binary64.infinityBits) :
    (shortest magnitude).digits.length ≤ 767 := by
  refine length_digits_le (by norm_num) ?_
  rcases shortest_cases h with ⟨count, hcount, hmem⟩ | hexact
  · have hlt := candidate_lt (Nat.pow_pos (by norm_num)) hmem
    exact hlt.trans_le (pow_le_pow_right₀ (by norm_num) (by omega))
  · rw [hexact]
    exact exact_lt hfinite

theorem coefficient_ne_zero_of_nearest {d : Decimal} (h : d.nearest ≠ 0) : d.coefficient ≠ 0 := by
  intro hzero
  exact h (if_pos hzero)

/-- The coefficient of a shortest decimal ends in no zero. -/
theorem coefficient_shortest_mod {magnitude : Nat} (h : 0 < magnitude)
    (hfinite : magnitude < Binary64.infinityBits) :
    (shortest magnitude).coefficient % 10 ≠ 0 := by
  have hne : (shortest magnitude).coefficient ≠ 0 := by
    apply coefficient_ne_zero_of_nearest
    rw [nearest_shortest_of_finite hfinite]
    exact h.ne'
  have key : ∀ (c : Nat) (e : ℤ), shortest magnitude = ofDigits (Nat.toDigits 10 c) e →
      (shortest magnitude).coefficient % 10 ≠ 0 := by
    intro c e heq
    have hc : c ≠ 0 := by
      have := coefficient_ofDigits_le c e
      rw [heq] at hne
      omega
    rw [heq]
    refine ofDigits_coefficient_mod e (fun _ => Nat.isDigit_of_mem_toDigits (by norm_num) le_rfl) ?_
    rwa [Nat.ofDigitChars_ten_toDigits]
  rcases shortest_cases h with ⟨count, -, hmem⟩ | hexact
  · obtain ⟨c, -, hc⟩ := List.mem_map.1 (List.mem_filter.1 hmem).1
    exact key c _ hc.symm
  · exact key _ _ hexact

end TypedStore.Decimal
