/-
  TypedStore/Proofs/Codec/NumberText.lean
  =======================================
  **Reading written numbers.**

  A text that is put together from a sign, digits, a fraction and an exponent is taken apart into
  them (`ofChars?_parts`). Each layout of a decimal is such a text and has the decimal's own digits
  and point, so a written number is read as itself, a float with every bit
  (`numberOfWord?_write`).
-/
import TypedStore.Json.NumberText
import TypedStore.Proofs.Codec.Shortest

namespace TypedStore.Json.NumberText

/-- The sign of a number as it is written. -/
def sign (negative : Bool) : List Char := if negative then ['-'] else []

/-- The fraction of a number as it is written. -/
def point (fraction : List Char) : List Char := if fraction = [] then [] else '.' :: fraction

/-- Digits that may stand before the point. -/
def IsWhole (digits : List Char) : Prop :=
  ∃ head tail, digits = head :: tail ∧ head.isDigit ∧ (∀ c ∈ tail, c.isDigit) ∧
    (head = '0' → tail = [])

theorem ne_minus_of_isDigit {c : Char} (h : c.isDigit) : c ≠ '-' := by
  rintro rfl
  exact absurd h (by decide)

theorem splitSign_sign (negative : Bool) {text : List Char}
    (h : text.head?.all fun c => c.isDigit) :
    splitSign (sign negative ++ text) = (negative, text) := by
  cases negative with
  | true => rfl
  | false =>
    cases text with
    | nil => rfl
    | cons c rest =>
      have hc : c ≠ '-' := ne_minus_of_isDigit (by simpa using h)
      simp only [sign, Bool.false_eq_true, ↓reduceIte, List.nil_append]
      unfold splitSign
      split
      · next heq => exact absurd (List.cons.inj heq).1 hc
      · rfl

/-- A run of characters of one sort ends at the first character of another. -/
theorem takeWhile_run {sort : Char → Bool} {run rest : List Char} (hrun : ∀ c ∈ run, sort c)
    (hrest : ∀ c ∈ rest.head?, sort c = false) :
    (run ++ rest).takeWhile sort = run ∧ (run ++ rest).dropWhile sort = rest := by
  rw [List.takeWhile_append_of_pos hrun, List.dropWhile_append_of_pos hrun]
  cases rest with
  | nil => simp
  | cons c rest =>
    have hc := hrest c rfl
    simp [hc]

theorem head_of_exponentOfChars? {tail : List Char} {exponent : Option Int}
    (h : exponentOfChars? tail = some exponent) :
    ∀ c ∈ tail.head?, c = 'e' ∨ c = 'E' := by
  cases tail with
  | nil => simp
  | cons c rest =>
    intro c' hc'
    obtain rfl : c = c' := by simpa using hc'
    by_contra hne
    simp [exponentOfChars?, hne] at h

theorem splitFraction?_point {fraction tail : List Char} {exponent : Option Int}
    (hfraction : ∀ c ∈ fraction, c.isDigit) (htail : exponentOfChars? tail = some exponent) :
    splitFraction? (point fraction ++ tail) = some (fraction, tail) := by
  have hhead := head_of_exponentOfChars? htail
  by_cases hempty : fraction = []
  · subst hempty
    cases tail with
    | nil => rfl
    | cons c rest =>
      have hc : c ≠ '.' := by
        rcases hhead c rfl with rfl | rfl <;> decide
      simp only [point, ↓reduceIte, List.nil_append]
      unfold splitFraction?
      split
      · next heq => exact absurd (List.cons.inj heq).1 hc
      · rfl
  · have hrest : ∀ c ∈ tail.head?, c.isDigit = false := by
      intro c hc
      rcases hhead c hc with rfl | rfl <;> decide
    obtain ⟨htake, hdrop⟩ := takeWhile_run hfraction hrest
    simp only [point, hempty, ↓reduceIte, List.cons_append, splitFraction?, htake, hdrop]

/-- A text that is put together from the parts of a number is taken apart into them. -/
theorem ofChars?_parts (negative : Bool) {whole : List Char} (fraction tail : List Char)
    {exponent : Option Int} (hwhole : IsWhole whole) (hfraction : ∀ c ∈ fraction, c.isDigit)
    (htail : exponentOfChars? tail = some exponent) :
    ofChars? (sign negative ++ (whole ++ (point fraction ++ tail))) =
      some ⟨negative, whole, fraction, exponent⟩ := by
  obtain ⟨head, more, rfl, hhead, hmore, hzero⟩ := hwhole
  have hdigits : ∀ c ∈ head :: more, c.isDigit := by
    intro c hc
    rcases List.mem_cons.1 hc with rfl | hc
    · exact hhead
    · exact hmore c hc
  have hrest : ∀ c ∈ (point fraction ++ tail).head?, c.isDigit = false := by
    intro c hc
    by_cases hempty : fraction = []
    · simp only [point, hempty, ↓reduceIte, List.nil_append] at hc
      rcases head_of_exponentOfChars? htail c hc with rfl | rfl <;> decide
    · simp only [point, hempty, ↓reduceIte, List.cons_append, List.head?_cons,
        Option.mem_some_iff] at hc
      rw [← hc]
      decide
  obtain ⟨htake, hdrop⟩ := takeWhile_run hdigits hrest
  have hlead : ¬ (head :: more = [] ∨
      (head :: more).head? = some '0' ∧ (head :: more).length ≠ 1) := by
    rintro (h | ⟨h, hlen⟩)
    · exact List.cons_ne_nil _ _ h
    · have := hzero (by simpa using h)
      simp [this] at hlen
  unfold ofChars?
  rw [splitSign_sign negative (by simpa using hhead)]
  simp only [htake, hdrop, if_neg hlead, splitFraction?_point hfraction htail, htail,
    Option.bind_eq_bind, Option.bind_some, Option.pure_def]

end TypedStore.Json.NumberText

namespace TypedStore.Json

open NumberText

theorem isDigit_of_mem_toDigits {n : Nat} : ∀ c ∈ Nat.toDigits 10 n, c.isDigit :=
  fun _ => Nat.isDigit_of_mem_toDigits (by norm_num) le_rfl

theorem isWhole_toDigits (n : Nat) : IsWhole (Nat.toDigits 10 n) := by
  rcases Nat.eq_zero_or_pos n with rfl | hpos
  · exact ⟨'0', [], Nat.toDigits_zero 10, by decide, by simp, fun _ => rfl⟩
  · obtain ⟨head, tail, hne, hdigit, heq⟩ := Decimal.toDigits_head hpos.ne'
    have hall := isDigit_of_mem_toDigits (n := n)
    rw [heq] at hall
    exact ⟨head, tail, heq, hdigit, fun c hc => hall c (List.mem_cons_of_mem _ hc),
      fun h => absurd h hne⟩

/-! ### Integers -/

theorem ofChars?_writeInt (n : Int) :
    NumberText.ofChars? (Number.writeInt n) =
      some ⟨n < 0, Nat.toDigits 10 n.natAbs, [], none⟩ := by
  have h := ofChars?_parts (decide (n < 0)) [] [] (isWhole_toDigits n.natAbs) (by simp) rfl
  simpa [Number.writeInt, sign, point] using h

theorem intOfText?_writeInt {n : Int} (h : -0x8000000000000000 ≤ n ∧ n < 0x10000000000000000) :
    Number.intOfText? ⟨n < 0, Nat.toDigits 10 n.natAbs, [], none⟩ = some (.int ⟨n, h⟩) := by
  simp only [Number.intOfText?, and_self, ↓reduceIte, Nat.ofDigitChars_ten_toDigits,
    decide_eq_true_eq]
  split
  next hneg =>
    rw [if_neg (by omega), Number.ofInt?, dif_pos (by omega)]
    congr 3
    omega
  next hpos =>
    rw [Number.ofInt?, dif_pos (by omega)]
    congr 3
    omega

/-! ### Floats -/

theorem ofDigits_digits_append {d : Decimal} (hd : d.coefficient % 10 ≠ 0) (k : Nat)
    (exponent : ℤ) :
    Decimal.ofDigits (d.digits ++ List.replicate k '0') exponent =
      ⟨d.coefficient, exponent + k⟩ := by
  obtain ⟨init, last, hlast, heq⟩ := Decimal.toDigits_last hd
  have hdrop : Decimal.dropTrailingZeros (d.digits ++ List.replicate k '0') = d.digits := by
    rw [Decimal.dropTrailingZeros_append_zeros, Decimal.digits, heq,
      Decimal.dropTrailingZeros_concat hlast]
  have hvalue : Nat.ofDigitChars 10 d.digits 0 = d.coefficient := Nat.ofDigitChars_ten_toDigits
  simp only [Decimal.ofDigits, hdrop, hvalue, List.length_append, List.length_replicate,
    Nat.add_sub_cancel_left]

/-- The text reads, with either sign before it, as the decimal and not as an integer. -/
def Writes (text : List Char) (d : Decimal) : Prop :=
  ∀ negative, ∃ t : NumberText, NumberText.ofChars? (sign negative ++ text) = some t ∧
    t.negative = negative ∧ t.decimal = d ∧ Number.intOfText? t = none

/-- What makes a text that of a decimal: the digits of the decimal stand in it, after zeros and
    before zeros, and the point is where the exponent says. -/
theorem writes_of_parts {d : Decimal} (hd : d.coefficient % 10 ≠ 0)
    {whole : List Char} (fraction tail : List Char) {exponent : Option Int} (k : Nat)
    (hwhole : IsWhole whole) (hfraction : ∀ c ∈ fraction, c.isDigit)
    (htail : exponentOfChars? tail = some exponent) (hfloat : fraction ≠ [] ∨ exponent ≠ none)
    (hdigits : (whole ++ Decimal.dropTrailingZeros fraction).dropWhile (· = '0') =
      d.digits ++ List.replicate k '0')
    (hlength : d.digits.length + k ≤ exactDigits)
    (hexponent : exponent.getD 0 - (Decimal.dropTrailingZeros fraction).length + k =
      d.exponent) :
    Writes (whole ++ (point fraction ++ tail)) d := by
  intro negative
  refine ⟨_, ofChars?_parts negative fraction tail hwhole hfraction htail, rfl, ?_, ?_⟩
  · unfold NumberText.decimal
    simp only [hdigits, List.length_append, List.length_replicate, if_pos hlength,
      ofDigits_digits_append hd, hexponent]
  · refine if_neg ?_
    rintro ⟨hempty, hnone⟩
    exact hfloat.elim (fun h => h hempty) fun h => h hnone

theorem dropTrailingZeros_append_digits {d : Decimal} (hd : d.coefficient % 10 ≠ 0)
    {front back : List Char} (h : d.digits = front ++ back) (hback : back ≠ [])
    (before : List Char) :
    Decimal.dropTrailingZeros (before ++ back) = before ++ back := by
  obtain ⟨init, last, hlast, heq⟩ := Decimal.toDigits_last hd
  have hend : back = back.dropLast ++ [last] := by
    have : back.getLast hback = last := by
      have hlast' : (front ++ back).getLast? = some last := by
        rw [← h, Decimal.digits, heq, List.getLast?_append]
        rfl
      rw [List.getLast?_append_of_ne_nil _ hback, List.getLast?_eq_getLast_of_ne_nil hback] at hlast'
      exact Option.some.inj hlast'
    rw [← this, List.dropLast_append_getLast]
  rw [hend, ← List.append_assoc, Decimal.dropTrailingZeros_concat hlast]

theorem dropWhile_zeros_append {d : Decimal} (hd : d.coefficient % 10 ≠ 0) (z : Nat)
    (after : List Char) :
    (List.replicate z '0' ++ (d.digits ++ after)).dropWhile (· = '0') = d.digits ++ after := by
  have hne : d.coefficient ≠ 0 := by omega
  obtain ⟨head, tail, hhead, -, heq⟩ := Decimal.toDigits_head hne
  rw [Decimal.digits, heq]
  simp [hhead]

/-! The four layouts: all digits after the point, all before it, some on either side, and one
    digit before the point with an exponent. -/

variable {d : Decimal}

theorem writes_below_one (hd : d.coefficient % 10 ≠ 0) (hlength : d.digits.length ≤ exactDigits)
    (hpoint : d.point ≤ 0) :
    Writes ('0' :: '.' :: List.replicate (-d.point).toNat '0' ++ d.digits) d := by
  have hpos : d.digits ≠ [] := Nat.toDigits_ne_nil
  have hdrop := dropTrailingZeros_append_digits hd (List.nil_append d.digits).symm hpos
    (List.replicate (-d.point).toNat '0')
  have hne : List.replicate (-d.point).toNat '0' ++ d.digits ≠ [] := by simp [hpos]
  have hwhole : IsWhole ['0'] := ⟨'0', [], rfl, by decide, by simp, fun _ => rfl⟩
  have h := writes_of_parts hd (List.replicate (-d.point).toNat '0' ++ d.digits) [] 0 hwhole ?_ rfl
    (.inl hne) ?_ (by simpa using hlength) ?_
  · simpa [point, hne] using h
  · intro c hc
    rcases List.mem_append.1 hc with hc | hc
    · rw [List.eq_of_mem_replicate hc]
      decide
    · exact isDigit_of_mem_toDigits c hc
  · have := dropWhile_zeros_append hd ((-d.point).toNat + 1) []
    rw [hdrop]
    simpa [List.replicate_succ] using this
  · rw [hdrop]
    simp only [Option.getD_none, List.length_append, List.length_replicate]
    simp only [Decimal.point] at hpoint ⊢
    push_cast
    omega


theorem writes_whole (hd : d.coefficient % 10 ≠ 0) (hpoint : d.point.toNat ≤ exactDigits)
    (hle : d.digits.length ≤ d.point.toNat) :
    Writes (d.digits ++ List.replicate (d.point.toNat - d.digits.length) '0' ++ ['.', '0']) d := by
  have hne : d.coefficient ≠ 0 := by omega
  obtain ⟨head, tail, hhead, hdigit, heq⟩ := Decimal.toDigits_head hne
  have hall : ∀ c ∈ d.digits, c.isDigit := isDigit_of_mem_toDigits
  have hwhole : IsWhole (d.digits ++ List.replicate (d.point.toNat - d.digits.length) '0') := by
    rw [Decimal.digits] at hall ⊢
    rw [heq] at hall ⊢
    refine ⟨head, _, rfl, hdigit, ?_, fun h => absurd h hhead⟩
    intro c hc
    rcases List.mem_append.1 hc with hc | hc
    · exact hall c (List.mem_cons_of_mem _ hc)
    · rw [List.eq_of_mem_replicate hc]
      decide
  have hdrop : Decimal.dropTrailingZeros ['0'] = [] := rfl
  have hlength : d.digits.length + (d.point.toNat - d.digits.length) ≤ exactDigits := by
    rwa [Nat.add_sub_cancel' hle]
  have h := writes_of_parts hd ['0'] [] (d.point.toNat - d.digits.length) hwhole (by simp) rfl
    (.inl (List.cons_ne_nil _ _)) ?_ hlength ?_
  · exact h
  · rw [hdrop, List.append_nil]
    exact dropWhile_zeros_append hd 0 _
  · rw [hdrop]
    simp only [Option.getD_none, List.length_nil]
    have hlen := Nat.length_toDigits_pos (b := 10) (n := d.coefficient)
    simp only [Decimal.point, Decimal.digits] at hle ⊢
    push_cast [hle]
    omega

theorem writes_divided (hd : d.coefficient % 10 ≠ 0) (hlength : d.digits.length ≤ exactDigits)
    (hpos : 0 < d.point) (hlt : d.point.toNat < d.digits.length) :
    Writes (d.digits.take d.point.toNat ++ '.' :: d.digits.drop d.point.toNat) d := by
  have hne : d.coefficient ≠ 0 := by omega
  obtain ⟨head, tail, hhead, hdigit, heq⟩ := Decimal.toDigits_head hne
  have hall : ∀ c ∈ d.digits, c.isDigit := isDigit_of_mem_toDigits
  have hback : d.digits.drop d.point.toNat ≠ [] := by
    rw [ne_eq, List.drop_eq_nil_iff]
    omega
  have hwhole : IsWhole (d.digits.take d.point.toNat) := by
    obtain ⟨p, hp⟩ : ∃ p, d.point.toNat = p + 1 := ⟨d.point.toNat - 1, by omega⟩
    rw [Decimal.digits] at hall ⊢
    rw [heq] at hall ⊢
    rw [hp]
    exact ⟨head, tail.take p, rfl, hdigit,
      fun c hc => hall c (List.mem_cons_of_mem _ (List.mem_of_mem_take hc)), fun h => absurd h hhead⟩
  have hdrop := dropTrailingZeros_append_digits hd
    (List.take_append_drop d.point.toNat d.digits).symm hback []
  rw [List.nil_append] at hdrop
  have h := writes_of_parts hd (d.digits.drop d.point.toNat) [] 0 hwhole
    (fun c hc => hall c (List.mem_of_mem_drop hc)) rfl (.inl hback) ?_ (by simpa using hlength) ?_
  · simpa [point, hback] using h
  · rw [hdrop, List.take_append_drop]
    simpa using dropWhile_zeros_append hd 0 []
  · rw [hdrop]
    simp only [Option.getD_none, List.length_drop]
    simp only [Decimal.point] at hpos hlt ⊢
    push_cast [hlt.le]
    omega

theorem exponentOfChars?_signed (e : Int) :
    exponentOfChars? ('e' :: (if e < 0 then '-' else '+') :: Nat.toDigits 10 e.natAbs) =
      some (some e) := by
  have hnat : natOfDigits? (Nat.toDigits 10 e.natAbs) = some e.natAbs := by
    have hall : (Nat.toDigits 10 e.natAbs).all Char.isDigit :=
      List.all_eq_true.2 isDigit_of_mem_toDigits
    rw [natOfDigits?, if_pos ⟨Nat.toDigits_ne_nil, hall⟩, Nat.ofDigitChars_ten_toDigits]
  simp only [exponentOfChars?, true_or, ↓reduceIte]
  split
  next hneg =>
    have habs : -(e.natAbs : Int) = e := by omega
    simp only [signedOfDigits?, hnat, Option.bind_eq_bind, Option.bind_some, Option.pure_def,
      Option.map_some, habs]
  next hpos =>
    have habs : Int.ofNat e.natAbs = e := Int.natAbs_of_nonneg (by omega)
    simp only [signedOfDigits?, hnat, Option.map_some, habs]

theorem scientific_eq (head : Char) (tail : List Char) (p : Int) :
    Layout.scientific (head :: tail) p =
      [head] ++ (point tail ++
        'e' :: (if p - 1 < 0 then '-' else '+') :: Nat.toDigits 10 (p - 1).natAbs) := by
  cases tail <;> rfl

theorem writes_scientific (hd : d.coefficient % 10 ≠ 0)
    (hlength : d.digits.length ≤ exactDigits) :
    Writes (Layout.scientific d.digits d.point) d := by
  have hne : d.coefficient ≠ 0 := by omega
  obtain ⟨head, tail, hhead, hdigit, heq⟩ := Decimal.toDigits_head hne
  have hdigits : d.digits = head :: tail := heq
  have hall : ∀ c ∈ d.digits, c.isDigit := isDigit_of_mem_toDigits
  have hdrop : Decimal.dropTrailingZeros tail = tail := by
    by_cases hempty : tail = []
    · rw [hempty]
      rfl
    · exact dropTrailingZeros_append_digits hd (show d.digits = [head] ++ tail from hdigits) hempty []
  have hwhole : IsWhole [head] := ⟨head, [], rfl, hdigit, by simp, fun _ => rfl⟩
  have h := writes_of_parts hd tail _ 0 hwhole
    (fun c hc => hall c (hdigits ▸ List.mem_cons_of_mem _ hc))
    (exponentOfChars?_signed (d.point - 1)) (.inr (by simp)) ?_ (by simpa using hlength) ?_
  · rw [hdigits, scientific_eq]
    exact h
  · have := dropWhile_zeros_append hd 0 []
    rw [hdrop]
    simpa [hdigits] using this
  · rw [hdrop]
    simp only [Option.getD_some, Decimal.point, hdigits, List.length_cons]
    push_cast
    omega

/-- The text of a decimal is read as that decimal. -/
theorem writes_layout {layout : Layout} (hlayout : layout.greatestPoint ≤ exactDigits)
    (hd : d.coefficient % 10 ≠ 0) (hlength : d.digits.length ≤ exactDigits) :
    Writes (layout.write d) d := by
  have hne : d.coefficient ≠ 0 := by omega
  rw [Layout.write, if_neg hne]
  split
  next hrange =>
    unfold Layout.positional
    by_cases hsmall : d.point ≤ 0
    · rw [if_pos hsmall]
      exact writes_below_one hd hlength hsmall
    rw [if_neg hsmall]
    by_cases hwhole : d.digits.length ≤ d.point.toNat
    · rw [if_pos hwhole]
      exact writes_whole hd (by omega) hwhole
    · rw [if_neg hwhole]
      exact writes_divided hd hlength (by omega) (by omega)
  next => exact writes_scientific hd hlength

theorem writes_zero : Writes ['0', '.', '0'] ⟨0, 0⟩ := by
  intro negative
  refine ⟨⟨negative, ['0'], ['0'], none⟩, ?_, rfl, rfl, rfl⟩
  cases negative <;> rfl

theorem writes_shortest {magnitude : Nat} (h : magnitude < Binary64.infinityBits) :
    Writes (Layout.stored.write (Decimal.shortest magnitude)) (Decimal.shortest magnitude) := by
  rcases Nat.eq_zero_or_pos magnitude with rfl | hpos
  · exact writes_zero
  · refine writes_layout (by decide) (Decimal.coefficient_shortest_mod hpos h) ?_
    exact (Decimal.length_digits_shortest hpos h).trans (by decide)

/-! ### Both -/

/-- A written number is read as itself: an integer as that integer, a float bit by bit. -/
theorem numberOfWord?_write (n : Number) : numberOfWord? n.write = some n := by
  cases n with
  | int n =>
    obtain ⟨n, hn⟩ := n
    rw [numberOfWord?, Number.write, ofChars?_writeInt, Option.bind_some, Number.ofText?,
      intOfText?_writeInt hn]
    rfl
  | float x =>
    obtain ⟨x, hx⟩ := x
    have hfinite : x.magnitude < Binary64.infinityBits := by simpa [Binary64.isFinite] using hx
    obtain ⟨t, ht, hneg, hdecimal, hint⟩ := writes_shortest hfinite x.isNegative
    have hvalue : Binary64.ofMagnitude t.negative t.decimal.nearest = x := by
      rw [hneg, hdecimal, Decimal.nearest_shortest_of_finite hfinite,
        Binary64.ofMagnitude_magnitude]
    have hwrite : Number.write (.float ⟨x, hx⟩) =
        sign x.isNegative ++ Layout.stored.write (Decimal.shortest x.magnitude) := rfl
    rw [numberOfWord?, hwrite, ht, Option.bind_some, Number.ofText?, hint, hvalue, Option.none_or,
      Number.ofFloat?, dif_pos hx]

end TypedStore.Json
