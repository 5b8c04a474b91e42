/-
  TypedStore/Proofs/Codec/Utf8.lean
  =================================
  **Reading written bytes.**

  The bytes of any characters are read back as these characters (`split_encodeChars`). The four
  lengths a character can have are taken one by one; the ranges that a lead byte sets for the byte
  after it are met because a character is neither a surrogate nor written longer than it must be.
  The same ranges let nothing else through, so bytes that are read are the bytes of what is read
  (`encode_of_decode`). A text comes before another if its bytes do (`encode_lt_encode`).
-/
import TypedStore.Bytes.Utf8

namespace TypedStore.Utf8

theorem scan_ascii {b : UInt8} (h : b < 0x80) (i : Nat) (rest : Bytes) :
    scan i none (b :: rest) =
      (Char.ofNat b.toNat :: (scan (i + 1) none rest).1, (scan (i + 1) none rest).2) := by
  simp [scan, h]

theorem scan_lead {b : UInt8} (h : ¬ b < 0x80) {p : Pending} {i : Nat}
    (hp : Pending.ofLead i b = some p) (rest : Bytes) :
    scan i none (b :: rest) = scan (i + 1) (some p) rest := by
  simp [scan, h, hp]

theorem scan_next {p : Pending} {b : UInt8} {more : Nat} (hlow : p.low ≤ b) (hhigh : b ≤ p.high)
    (hmore : p.more = more + 1) (i : Nat) (rest : Bytes) :
    scan i (some p) (b :: rest) =
      scan (i + 1) (some ⟨p.start, p.seen + 1, more, 0x80, 0xBF, p.extend b⟩) rest := by
  simp [scan, hlow, hhigh, hmore]

theorem scan_last {p : Pending} {b : UInt8} (hlow : p.low ≤ b) (hhigh : b ≤ p.high)
    (hmore : p.more = 0) {n : Nat} (hn : p.extend b = n) (i : Nat) (rest : Bytes) :
    scan i (some p) (b :: rest) =
      (Char.ofNat n :: (scan (i + 1) none rest).1, (scan (i + 1) none rest).2) := by
  simp [scan, hlow, hhigh, hmore, hn]

theorem not_ascii {b : UInt8} (h : 0x80 ≤ b.toNat) : ¬ b < 0x80 := by
  simp only [UInt8.lt_iff_toNat_lt, UInt8.reduceToNat]
  omega

theorem continuation {b : UInt8} {n : Nat} (h : b.toNat = n % 64 + 0x80) :
    0x80 ≤ b ∧ b ≤ 0xBF := by
  simp only [UInt8.le_iff_toNat_le, UInt8.reduceToNat]
  omega

theorem ofLead_two {b : UInt8} {n : Nat} (hn : 0x80 ≤ n) (hn' : n < 0x800)
    (h : b.toNat = n / 64 + 0xC0) (i : Nat) :
    Pending.ofLead i b = some ⟨i, 1, 0, 0x80, 0xBF, n / 64⟩ := by
  rw [Pending.ofLead, if_pos]
  · rw [h, Nat.add_sub_cancel]
  · simp only [UInt8.le_iff_toNat_le, UInt8.reduceToNat]
    omega

/-- The lead of a three-byte character bounds the byte after it: not below what a shorter form
    would write, and not within the surrogates. -/
theorem ofLead_three {b₀ b₁ : UInt8} {n : Nat} (hn : 0x800 ≤ n) (hn' : n < 0x10000)
    (hsurrogate : n < 0xD800 ∨ 0xDFFF < n) (h₀ : b₀.toNat = n / 4096 + 0xE0)
    (h₁ : b₁.toNat = n / 64 % 64 + 0x80) (i : Nat) :
    ∃ low high, Pending.ofLead i b₀ = some ⟨i, 1, 1, low, high, n / 4096⟩ ∧
      low ≤ b₁ ∧ b₁ ≤ high := by
  simp only [Pending.ofLead, UInt8.le_iff_toNat_le, ← UInt8.toNat_inj, UInt8.reduceToNat, h₀]
  by_cases hlow : n < 0x1000
  · refine ⟨0xA0, 0xBF, ?_, ?_⟩
    · rw [if_neg (by omega), if_pos (by omega)]
      congr 2
      omega
    · simp only [UInt8.reduceToNat]
      omega
  by_cases hhigh : 0xD000 ≤ n ∧ n < 0xE000
  · refine ⟨0x80, 0x9F, ?_, ?_⟩
    · rw [if_neg (by omega), if_neg (by omega), if_pos (by omega)]
      congr 2
      omega
    · simp only [UInt8.reduceToNat]
      omega
  · refine ⟨0x80, 0xBF, ?_, ?_⟩
    · rw [if_neg (by omega), if_neg (by omega), if_neg (by omega), if_pos (by omega),
        Nat.add_sub_cancel]
    · simp only [UInt8.reduceToNat]
      omega

theorem ofLead_four {b₀ b₁ : UInt8} {n : Nat} (hn : 0x10000 ≤ n) (hn' : n < 0x110000)
    (h₀ : b₀.toNat = n / 262144 + 0xF0) (h₁ : b₁.toNat = n / 4096 % 64 + 0x80) (i : Nat) :
    ∃ low high, Pending.ofLead i b₀ = some ⟨i, 1, 2, low, high, n / 262144⟩ ∧
      low ≤ b₁ ∧ b₁ ≤ high := by
  simp only [Pending.ofLead, UInt8.le_iff_toNat_le, ← UInt8.toNat_inj, UInt8.reduceToNat, h₀]
  rw [if_neg (by omega), if_neg (by omega), if_neg (by omega), if_neg (by omega)]
  by_cases hlow : n < 0x40000
  · refine ⟨0x90, 0xBF, ?_, ?_⟩
    · rw [if_pos (by omega)]
      congr 2
      omega
    · simp only [UInt8.reduceToNat]
      omega
  by_cases hhigh : n < 0x100000
  · refine ⟨0x80, 0xBF, ?_, ?_⟩
    · rw [if_neg (by omega), if_pos (by omega), Nat.add_sub_cancel]
    · simp only [UInt8.reduceToNat]
      omega
  · refine ⟨0x80, 0x8F, ?_, ?_⟩
    · rw [if_neg (by omega), if_neg (by omega), if_pos (by omega)]
      congr 2
      omega
    · simp only [UInt8.reduceToNat]
      omega

theorem scan_two {b₀ b₁ : UInt8} {n : Nat} (hn : 0x80 ≤ n) (hn' : n < 0x800)
    (h₀ : b₀.toNat = n / 64 + 0xC0) (h₁ : b₁.toNat = n % 64 + 0x80) (i : Nat) (rest : Bytes) :
    scan i none (b₀ :: b₁ :: rest) =
      (Char.ofNat n :: (scan (i + 1 + 1) none rest).1, (scan (i + 1 + 1) none rest).2) := by
  obtain ⟨hlow, hhigh⟩ := continuation h₁
  rw [scan_lead (not_ascii (by omega)) (ofLead_two hn hn' h₀ i)]
  refine scan_last (p := ⟨i, 1, 0, 0x80, 0xBF, n / 64⟩) hlow hhigh rfl ?_ _ _
  change n / 64 * 64 + (b₁.toNat - 0x80) = n
  omega

theorem scan_three {b₀ b₁ b₂ : UInt8} {n : Nat} (hn : 0x800 ≤ n) (hn' : n < 0x10000)
    (hsurrogate : n < 0xD800 ∨ 0xDFFF < n) (h₀ : b₀.toNat = n / 4096 + 0xE0)
    (h₁ : b₁.toNat = n / 64 % 64 + 0x80) (h₂ : b₂.toNat = n % 64 + 0x80) (i : Nat)
    (rest : Bytes) :
    scan i none (b₀ :: b₁ :: b₂ :: rest) =
      (Char.ofNat n :: (scan (i + 1 + 1 + 1) none rest).1,
        (scan (i + 1 + 1 + 1) none rest).2) := by
  obtain ⟨low, high, hlead, hlow, hhigh⟩ := ofLead_three hn hn' hsurrogate h₀ h₁ i
  obtain ⟨hlow₂, hhigh₂⟩ := continuation h₂
  rw [scan_lead (not_ascii (by omega)) hlead,
    scan_next (p := ⟨i, 1, 1, low, high, n / 4096⟩) hlow hhigh rfl]
  refine scan_last (p := ⟨i, 2, 0, 0x80, 0xBF, _⟩) hlow₂ hhigh₂ rfl ?_ _ _
  change (n / 4096 * 64 + (b₁.toNat - 0x80)) * 64 + (b₂.toNat - 0x80) = n
  omega

theorem scan_four {b₀ b₁ b₂ b₃ : UInt8} {n : Nat} (hn : 0x10000 ≤ n) (hn' : n < 0x110000)
    (h₀ : b₀.toNat = n / 262144 + 0xF0) (h₁ : b₁.toNat = n / 4096 % 64 + 0x80)
    (h₂ : b₂.toNat = n / 64 % 64 + 0x80) (h₃ : b₃.toNat = n % 64 + 0x80) (i : Nat)
    (rest : Bytes) :
    scan i none (b₀ :: b₁ :: b₂ :: b₃ :: rest) =
      (Char.ofNat n :: (scan (i + 1 + 1 + 1 + 1) none rest).1,
        (scan (i + 1 + 1 + 1 + 1) none rest).2) := by
  obtain ⟨low, high, hlead, hlow, hhigh⟩ := ofLead_four hn hn' h₀ h₁ i
  obtain ⟨hlow₂, hhigh₂⟩ := continuation h₂
  obtain ⟨hlow₃, hhigh₃⟩ := continuation h₃
  rw [scan_lead (not_ascii (by omega)) hlead,
    scan_next (p := ⟨i, 1, 2, low, high, n / 262144⟩) hlow hhigh rfl,
    scan_next (p := ⟨i, 2, 1, 0x80, 0xBF, _⟩) hlow₂ hhigh₂ rfl]
  refine scan_last (p := ⟨i, 3, 0, 0x80, 0xBF, _⟩) hlow₃ hhigh₃ rfl ?_ _ _
  change ((n / 262144 * 64 + (b₁.toNat - 0x80)) * 64 + (b₂.toNat - 0x80)) * 64 +
    (b₃.toNat - 0x80) = n
  omega

/-- The bytes of the character with a number: the larger it is the more there are, and its bits are
    spread over them, the high ones first. -/
inductive Spells (n : Nat) : Bytes → Prop where
  | one {b : UInt8} : n < 0x80 → b.toNat = n → Spells n [b]
  | two {b₀ b₁ : UInt8} : 0x80 ≤ n → n < 0x800 → b₀.toNat = n / 64 + 0xC0 →
    b₁.toNat = n % 64 + 0x80 → Spells n [b₀, b₁]
  | three {b₀ b₁ b₂ : UInt8} : 0x800 ≤ n → n < 0x10000 → b₀.toNat = n / 4096 + 0xE0 →
    b₁.toNat = n / 64 % 64 + 0x80 → b₂.toNat = n % 64 + 0x80 → Spells n [b₀, b₁, b₂]
  | four {b₀ b₁ b₂ b₃ : UInt8} : 0x10000 ≤ n → n < 0x110000 → b₀.toNat = n / 262144 + 0xF0 →
    b₁.toNat = n / 4096 % 64 + 0x80 → b₂.toNat = n / 64 % 64 + 0x80 → b₃.toNat = n % 64 + 0x80 →
    Spells n [b₀, b₁, b₂, b₃]

theorem spells_utf8EncodeChar (c : Char) : Spells c.toNat (String.utf8EncodeChar c) := by
  have hvalid : c.toNat < 0xD800 ∨ 0xDFFF < c.toNat ∧ c.toNat < 0x110000 := c.valid
  have hbyte : ∀ {n k : Nat}, n < 256 → n = k → (UInt8.ofNat n).toNat = k := by
    rintro n _ hn rfl
    exact UInt8.toNat_ofNat_of_lt' hn
  unfold String.utf8EncodeChar
  simp only [show c.val.toNat = c.toNat from rfl]
  split
  · exact .one (by omega) (hbyte (by omega) rfl)
  split
  · exact .two (by omega) (by omega) (hbyte (by omega) (by omega)) (hbyte (by omega) rfl)
  split
  · exact .three (by omega) (by omega) (hbyte (by omega) (by omega)) (hbyte (by omega) rfl)
      (hbyte (by omega) rfl)
  · exact .four (by omega) (by omega) (hbyte (by omega) (by omega)) (hbyte (by omega) rfl)
      (hbyte (by omega) rfl) (hbyte (by omega) rfl)

/-- The bytes of a character are read as that character, and then reading goes on behind them. -/
theorem scan_char (c : Char) (i : Nat) (rest : Bytes) :
    ∃ j, scan i none (String.utf8EncodeChar c ++ rest) =
      (c :: (scan j none rest).1, (scan j none rest).2) := by
  have hvalid : c.toNat < 0xD800 ∨ 0xDFFF < c.toNat ∧ c.toNat < 0x110000 := c.valid
  have hof : Char.ofNat c.toNat = c := Char.ofNat_toNat c
  have hspells := spells_utf8EncodeChar c
  generalize String.utf8EncodeChar c = bytes at hspells ⊢
  cases hspells with
  | @one b hn h =>
    have hascii : b < 0x80 := by
      rw [UInt8.lt_iff_toNat_lt, h]
      exact hn
    refine ⟨i + 1, (scan_ascii hascii i rest).trans ?_⟩
    rw [h, hof]
  | two hn hn' h₀ h₁ =>
    refine ⟨i + 1 + 1, (scan_two hn hn' h₀ h₁ i rest).trans ?_⟩
    rw [hof]
  | three hn hn' h₀ h₁ h₂ =>
    refine ⟨i + 1 + 1 + 1, (scan_three hn hn' (by omega) h₀ h₁ h₂ i rest).trans ?_⟩
    rw [hof]
  | four hn hn' h₀ h₁ h₂ h₃ =>
    refine ⟨i + 1 + 1 + 1 + 1, (scan_four hn hn' h₀ h₁ h₂ h₃ i rest).trans ?_⟩
    rw [hof]

theorem scan_encodeChars (cs : List Char) (i : Nat) : scan i none (encodeChars cs) = (cs, none) := by
  induction cs generalizing i with
  | nil => rfl
  | cons c cs ih =>
    obtain ⟨j, hj⟩ := scan_char c i (encodeChars cs)
    rw [show encodeChars (c :: cs) = String.utf8EncodeChar c ++ encodeChars cs from
      List.flatMap_cons, hj, ih j]

/-- Characters written as bytes are read back, and no fault is found. -/
theorem split_encodeChars (cs : List Char) : split (encodeChars cs) = (cs, none) :=
  scan_encodeChars cs 0

theorem decode_encode (s : String) : decode (encode s) = .ok s := by
  rw [decode, encode, split_encodeChars]
  exact congrArg Except.ok (String.ofList_toList)

theorem encodeChars_injective {as bs : List Char} (h : encodeChars as = encodeChars bs) :
    as = bs := by
  have hsplit := congrArg split h
  rw [split_encodeChars, split_encodeChars] at hsplit
  exact (Prod.mk.inj hsplit).1

theorem encode_injective {a b : String} (h : encode a = encode b) : a = b :=
  String.toList_injective (encodeChars_injective h)

/-! ### Only written bytes are read -/

theorem toNat_ofNat_of_valid {n : Nat} (h : n < 0xD800 ∨ 0xDFFF < n ∧ n < 0x110000) :
    (Char.ofNat n).val.toNat = n := by
  have hvalid : n.isValidChar := h
  rw [Char.ofNat, dif_pos hvalid]
  rfl

theorem eq_ofNat {b : UInt8} {n : Nat} (h : b.toNat = n) (hn : n < 256) : UInt8.ofNat n = b := by
  apply UInt8.toNat_inj.1
  rw [UInt8.toNat_ofNat_of_lt' hn, h]

theorem encode_two {b₀ b₁ : UInt8} {n : Nat} (hn : 0x80 ≤ n) (hn' : n < 0x800)
    (h₀ : b₀.toNat = n / 64 + 0xC0) (h₁ : b₁.toNat = n % 64 + 0x80) :
    String.utf8EncodeChar (Char.ofNat n) = [b₀, b₁] := by
  rw [String.utf8EncodeChar, toNat_ofNat_of_valid (.inl (by omega))]
  rw [if_neg (by omega), if_pos (by omega), eq_ofNat (b := b₀) (by omega) (by omega),
    eq_ofNat (b := b₁) (by omega) (by omega)]

theorem encode_three {b₀ b₁ b₂ : UInt8} {n : Nat} (hn : 0x800 ≤ n) (hn' : n < 0x10000)
    (hsurrogate : n < 0xD800 ∨ 0xDFFF < n) (h₀ : b₀.toNat = n / 4096 + 0xE0)
    (h₁ : b₁.toNat = n / 64 % 64 + 0x80) (h₂ : b₂.toNat = n % 64 + 0x80) :
    String.utf8EncodeChar (Char.ofNat n) = [b₀, b₁, b₂] := by
  rw [String.utf8EncodeChar, toNat_ofNat_of_valid (by omega)]
  rw [if_neg (by omega), if_neg (by omega), if_pos (by omega),
    eq_ofNat (b := b₀) (by omega) (by omega), eq_ofNat (b := b₁) (by omega) (by omega),
    eq_ofNat (b := b₂) (by omega) (by omega)]

theorem encode_four {b₀ b₁ b₂ b₃ : UInt8} {n : Nat} (hn : 0x10000 ≤ n) (hn' : n < 0x110000)
    (h₀ : b₀.toNat = n / 262144 + 0xF0) (h₁ : b₁.toNat = n / 4096 % 64 + 0x80)
    (h₂ : b₂.toNat = n / 64 % 64 + 0x80) (h₃ : b₃.toNat = n % 64 + 0x80) :
    String.utf8EncodeChar (Char.ofNat n) = [b₀, b₁, b₂, b₃] := by
  rw [String.utf8EncodeChar, toNat_ofNat_of_valid (.inr (by omega))]
  rw [if_neg (by omega), if_neg (by omega), if_neg (by omega),
    eq_ofNat (b := b₀) (by omega) (by omega), eq_ofNat (b := b₁) (by omega) (by omega),
    eq_ofNat (b := b₂) (by omega) (by omega), eq_ofNat (b := b₃) (by omega) (by omega)]

/-- Whatever bytes in range come next, the character that they end is written as they are, after
    the bytes that have been read of it. -/
def Completes : Nat → Bytes → UInt8 → UInt8 → Nat → Prop
  | 0, read, low, high, code => ∀ b, low ≤ b → b ≤ high →
    String.utf8EncodeChar (Char.ofNat (code * 64 + (b.toNat - 0x80))) = read ++ [b]
  | more + 1, read, low, high, code => ∀ b, low ≤ b → b ≤ high →
    Completes more (read ++ [b]) 0x80 0xBF (code * 64 + (b.toNat - 0x80))

theorem completes_two {b : UInt8} (hlow : 0xC2 ≤ b.toNat) (hhigh : b.toNat ≤ 0xDF) :
    Completes 0 [b] 0x80 0xBF (b.toNat - 0xC0) := by
  intro b₁ hlow₁ hhigh₁
  simp only [UInt8.le_iff_toNat_le, UInt8.reduceToNat] at hlow₁ hhigh₁
  exact encode_two (by omega) (by omega) (by omega) (by omega)

/-- The range of the second byte keeps out what a shorter form writes, and the surrogates. -/
theorem completes_three {b low high : UInt8} {code : Nat} (hb : b.toNat = code + 0xE0)
    (hcode : code < 0x10) (hlow : 0x80 ≤ low.toNat) (hhigh : high.toNat ≤ 0xBF)
    (hshort : 0x20 + 0x80 ≤ code * 64 + low.toNat)
    (hsurrogate : code * 64 + high.toNat < 0x360 + 0x80 ∨ 0x37F + 0x80 < code * 64 + low.toNat) :
    Completes 1 [b] low high code := by
  intro b₁ hlow₁ hhigh₁ b₂ hlow₂ hhigh₂
  simp only [UInt8.le_iff_toNat_le, UInt8.reduceToNat] at hlow₁ hhigh₁ hlow₂ hhigh₂
  exact encode_three (by omega) (by omega) (by omega) (by omega) (by omega) (by omega)

theorem completes_four {b low high : UInt8} {code : Nat} (hb : b.toNat = code + 0xF0)
    (hlow : 0x80 ≤ low.toNat) (hhigh : high.toNat ≤ 0xBF)
    (hshort : 0x10 + 0x80 ≤ code * 64 + low.toNat)
    (hlong : code * 64 + high.toNat < 0x110 + 0x80) :
    Completes 2 [b] low high code := by
  intro b₁ hlow₁ hhigh₁ b₂ hlow₂ hhigh₂ b₃ hlow₃ hhigh₃
  simp only [UInt8.le_iff_toNat_le, UInt8.reduceToNat] at hlow₁ hhigh₁ hlow₂ hhigh₂ hlow₃ hhigh₃
  exact encode_four (by omega) (by omega) (by omega) (by omega) (by omega) (by omega)

theorem completes_ofLead {b : UInt8} {i : Nat} {p : Pending} (h : Pending.ofLead i b = some p) :
    Completes p.more [b] p.low p.high p.code := by
  simp only [Pending.ofLead, UInt8.le_iff_toNat_le, ← UInt8.toNat_inj, UInt8.reduceToNat] at h
  split at h
  · next hb =>
    obtain rfl := Option.some.inj h
    exact completes_two hb.1 hb.2
  split at h
  · next hb =>
    obtain rfl := Option.some.inj h
    have hdone : Completes 1 [b] 0xA0 0xBF 0 :=
      completes_three hb (by decide) (by decide) (by decide) (by decide) (by decide)
    exact hdone
  split at h
  · next hb =>
    obtain rfl := Option.some.inj h
    have hdone : Completes 1 [b] 0x80 0x9F 0xD :=
      completes_three hb (by decide) (by decide) (by decide) (by decide) (by decide)
    exact hdone
  split at h
  · next hb =>
    obtain rfl := Option.some.inj h
    have hdone : Completes 1 [b] 0x80 0xBF (b.toNat - 0xE0) := by
      refine completes_three (by omega) (by omega) (by decide) (by decide) ?_ ?_
      · simp only [UInt8.reduceToNat]
        omega
      · simp only [UInt8.reduceToNat]
        omega
    exact hdone
  split at h
  · next hb =>
    obtain rfl := Option.some.inj h
    have hdone : Completes 2 [b] 0x90 0xBF 0 :=
      completes_four hb (by decide) (by decide) (by decide) (by decide)
    exact hdone
  split at h
  · next hb =>
    obtain rfl := Option.some.inj h
    have hdone : Completes 2 [b] 0x80 0xBF (b.toNat - 0xF0) := by
      refine completes_four (by omega) (by decide) (by decide) ?_ ?_
      · simp only [UInt8.reduceToNat]
        omega
      · simp only [UInt8.reduceToNat]
        omega
    exact hdone
  split at h
  · next hb =>
    obtain rfl := Option.some.inj h
    have hdone : Completes 2 [b] 0x80 0x8F 4 :=
      completes_four hb (by decide) (by decide) (by decide) (by decide)
    exact hdone
  · cases h

theorem encode_ascii {b : UInt8} (h : b < 0x80) :
    String.utf8EncodeChar (Char.ofNat b.toNat) = [b] := by
  simp only [UInt8.lt_iff_toNat_lt, UInt8.reduceToNat] at h
  rw [String.utf8EncodeChar, toNat_ofNat_of_valid (.inl (by omega)), if_pos (by omega),
    eq_ofNat (b := b) rfl (by omega)]

/-- The bytes that have been read of a character, `none` standing for none. -/
def ReadOf (read : Bytes) : Option Pending → Prop
  | none => read = []
  | some p => Completes p.more read p.low p.high p.code

/-- What reading finds no fault with are the bytes of the characters that it finds. -/
theorem encodeChars_of_scan {bytes read : Bytes} {i : Nat} {pending : Option Pending}
    {cs : List Char} (hread : ReadOf read pending) (h : scan i pending bytes = (cs, none)) :
    encodeChars cs = read ++ bytes := by
  have hnone : ReadOf [] none := rfl
  induction bytes generalizing i pending cs read with
  | nil =>
    cases pending with
    | none =>
      cases h
      rw [hread]
      rfl
    | some p => cases h
  | cons b rest ih =>
    cases pending with
    | none =>
      obtain rfl : read = [] := hread
      by_cases hascii : b < 0x80
      · rw [scan_ascii hascii] at h
        obtain ⟨rfl, hfault⟩ := Prod.mk.inj h
        have hmore : encodeChars (scan (i + 1) none rest).1 = rest :=
          ih hnone (Prod.ext rfl hfault)
        rw [encodeChars, List.flatMap_cons, encode_ascii hascii]
        exact congrArg (b :: ·) hmore
      · cases hlead : Pending.ofLead i b with
        | none => simp [scan, hascii, hlead] at h
        | some p =>
          rw [scan_lead hascii hlead] at h
          have hnext : ReadOf [b] (some p) := completes_ofLead hlead
          exact ih hnext h
    | some p =>
      obtain ⟨start, seen, more, low, high, code⟩ := p
      by_cases hrange : low ≤ b ∧ b ≤ high
      · have hcompletes := hread
        cases more with
        | zero =>
          have hlast := scan_last (p := ⟨start, seen, 0, low, high, code⟩) hrange.1 hrange.2 rfl
            rfl i rest
          obtain ⟨rfl, hfault⟩ := Prod.mk.inj (hlast.symm.trans h)
          have hmore : encodeChars (scan (i + 1) none rest).1 = rest :=
            ih hnone (Prod.ext rfl hfault)
          have hchar := hcompletes b hrange.1 hrange.2
          rw [encodeChars, List.flatMap_cons]
          change String.utf8EncodeChar (Char.ofNat (code * 64 + (b.toNat - 0x80))) ++
            encodeChars (scan (i + 1) none rest).1 = _
          rw [hchar, hmore, List.append_assoc]
          rfl
        | succ more =>
          rw [scan_next hrange.1 hrange.2 rfl] at h
          have hnext : ReadOf (read ++ [b]) (some ⟨start, seen + 1, more, 0x80, 0xBF,
              Pending.extend ⟨start, seen, more + 1, low, high, code⟩ b⟩) :=
            hcompletes b hrange.1 hrange.2
          rw [ih hnext h, List.append_assoc]
          rfl
      · simp [scan, hrange] at h

theorem encodeChars_of_split {bytes : Bytes} {cs : List Char} (h : split bytes = (cs, none)) :
    encodeChars cs = bytes :=
  encodeChars_of_scan (show ReadOf [] none from rfl) h

/-- Only the bytes of a text are read as the text. -/
theorem encode_of_decode {bytes : Bytes} {s : String} (h : decode bytes = .ok s) :
    encode s = bytes := by
  rw [decode] at h
  cases hsplit : split bytes with
  | mk cs fault =>
    rw [hsplit] at h
    cases fault with
    | some fault => cases h
    | none =>
      obtain rfl := Except.ok.inj h
      rw [encode, String.toList_ofList]
      exact encodeChars_of_split hsplit

/-- A text is read from one sequence of bytes only. -/
theorem decode_inj {a b : Bytes} {s : String} (ha : decode a = .ok s) (hb : decode b = .ok s) :
    a = b := by
  rw [← encode_of_decode ha, encode_of_decode hb]

/-! ### The order of texts and that of their bytes -/

/-- The bytes of a character come before those of a later one, whatever follows them. -/
theorem Spells.append_lt {m n : Nat} {xs ys : Bytes} (hm : Spells m xs) (hn : Spells n ys)
    (h : m < n) (r r' : Bytes) : xs ++ r < ys ++ r' := by
  cases hm <;> cases hn <;>
    simp only [List.cons_append, List.nil_append, List.cons_lt_cons_iff, UInt8.lt_iff_toNat_lt,
      ← UInt8.toNat_inj] <;> omega

/-- Texts are ordered as their bytes are. -/
theorem encode_lt_encode {a b : String} (h : a < b) : encode a < encode b := by
  have hchars : List.Lex (· < ·) a.toList b.toList := h
  unfold encode encodeChars
  generalize a.toList = as at hchars
  generalize b.toList = bs at hchars
  induction hchars with
  | @nil c rest =>
    rw [List.flatMap_cons]
    have hspells := spells_utf8EncodeChar c
    generalize String.utf8EncodeChar c = bytes at hspells ⊢
    cases hspells <;> exact .nil
  | cons _ ih =>
    rw [List.flatMap_cons, List.flatMap_cons]
    exact List.append_left_lt ih
  | rel hlt =>
    rw [List.flatMap_cons, List.flatMap_cons]
    exact (spells_utf8EncodeChar _).append_lt (spells_utf8EncodeChar _) hlt _ _

end TypedStore.Utf8
