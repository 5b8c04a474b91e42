/-
  TypedStore/Proofs/Config/Lines.lean
  ===================================
  **Written lines are read back.**

  A line that gives a bare key a value is read whatever comes after it, so lines that follow one
  another are read one by one. What the reader needs of a value is said once (`WritesItem`): the value
  and nothing after it is taken when the line ends there. Two kinds of values are shown to meet it,
  strings of characters that stand for themselves (`writesItem_string`) and the integers that TOML has
  (`writesItem_integer`). For an integer the reader tries a date, a time and a float first; each of these
  has a mark that is no digit.

  The document of such lines has their entries in their order, if no key comes twice
  (`documentOf?_of_writesLines`).
-/
import TypedStore.Proofs.Codec.NumberText
import TypedStore.Toml.Document
import TypedStore.Toml.Writer

namespace TypedStore.Toml

/-! ### Bare keys -/

/-- A text that may stand as a key without quotes. -/
def IsBare (text : List Char) : Prop := text ≠ [] ∧ text.all isBareChar

theorem IsBare.forall_mem {text : List Char} (h : IsBare text) : ∀ c ∈ text, isBareChar c :=
  List.all_eq_true.1 h.2

theorem ne_of_isBareChar {c d : Char} (hc : isBareChar c) (hd : isBareChar d = false) : c ≠ d := by
  rintro rfl
  rw [hc] at hd
  cases hd

theorem isBareChar_of_isDigit {c : Char} (h : c.isDigit) : isBareChar c := by
  simp [isBareChar, Char.isAlphanum, h]

/-- No string begins with a bare character. -/
theorem readString?_of_isBareChar {c : Char} (hc : isBareChar c) (multiline : Bool)
    (rest : List Char) : readString? multiline (c :: rest) = none := by
  have hdouble : c ≠ '"' := ne_of_isBareChar hc (by decide)
  have hsingle : c ≠ '\'' := ne_of_isBareChar hc (by decide)
  unfold readString?
  split <;> simp_all

theorem dropBlanks_cons {c : Char} (hc : isBlank c = false) (rest : List Char) :
    dropBlanks (c :: rest) = c :: rest := by
  simp [dropBlanks, hc]

theorem not_isBlank_of_isBareChar {c : Char} (hc : isBareChar c) : isBlank c = false := by
  have hspace : c ≠ ' ' := ne_of_isBareChar hc (by decide)
  have htab : c ≠ '\t' := ne_of_isBareChar hc (by decide)
  simp [isBlank, hspace, htab]

section Key

variable {key rest : List Char}

theorem readKeyPart_append (hkey : IsBare key) (hrest : ∀ c ∈ rest.head?, isBareChar c = false) :
    readKeyPart (key ++ rest) = some (String.ofList key, rest) := by
  obtain ⟨htake, hdrop⟩ := Json.NumberText.takeWhile_run hkey.forall_mem hrest
  rcases key with _ | ⟨c, key⟩
  · exact absurd rfl hkey.1
  · have hc : isBareChar c := hkey.forall_mem c (by simp)
    unfold readKeyPart
    rw [List.cons_append, readString?_of_isBareChar hc, ← List.cons_append, htake, hdrop]
    rfl

theorem dropBlanks_bare (hkey : IsBare key) (rest : List Char) :
    dropBlanks (key ++ rest) = key ++ rest := by
  rcases key with _ | ⟨c, key⟩
  · exact absurd rfl hkey.1
  · exact dropBlanks_cons (not_isBlank_of_isBareChar (hkey.forall_mem c (by simp))) _

/-- A bare key in front of an equals sign has one part. -/
theorem readKey_append (hkey : IsBare key) (bound : Nat) (rest : List Char) :
    readKey (bound + 1) (key ++ ' ' :: '=' :: rest) = some ([String.ofList key], '=' :: rest) := by
  have hpart : readKeyPart (key ++ ' ' :: '=' :: rest) =
      some (String.ofList key, ' ' :: '=' :: rest) := by
    refine readKeyPart_append hkey fun c hc => ?_
    obtain rfl : ' ' = c := by simpa using hc
    decide
  have hblanks : dropBlanks (' ' :: '=' :: rest) = '=' :: rest := rfl
  unfold readKey
  rw [dropBlanks_bare hkey]
  simp [hpart, hblanks]

end Key

/-! ### Values -/

/-- A value that is followed by the end of its line is read as an item. -/
structure WritesItem (value : List Char) (item : Item) : Prop where
  /-- Blanks in front of it would be taken for blanks after the equals sign. -/
  not_blank : ∀ c ∈ value.head?, isBlank c = false
  read (rest : List Char) :
    readValue maxNesting (value ++ '\n' :: rest) = some (item, '\n' :: rest)

/-! #### Strings -/

/-- A character that stands for itself between double quotes. -/
def IsPlainChar (c : Char) : Prop :=
  0x20 ≤ c.toNat ∧ c.toNat ≠ 0x7F ∧ c ≠ '"' ∧ c ≠ '\\'

theorem isPlainChar_of_isBareChar {c : Char} (h : isBareChar c) : IsPlainChar c := by
  have hrange : 0x20 ≤ c.toNat ∧ c.toNat < 0x7F := by
    simp only [isBareChar, Char.isAlphanum, Char.isAlpha, Char.isUpper, Char.isLower, Char.isDigit,
      Bool.or_eq_true, Bool.and_eq_true, decide_eq_true_eq, UInt32.le_iff_toNat_le, ge_iff_le] at h
    have hval : c.toNat = c.val.toNat := rfl
    rcases h with (((⟨hlow, hhigh⟩ | ⟨hlow, hhigh⟩) | ⟨hlow, hhigh⟩) | rfl) | rfl
    · simp at hlow hhigh
      omega
    · simp at hlow hhigh
      omega
    · simp at hlow hhigh
      omega
    · decide
    · decide
  exact ⟨hrange.1, hrange.2.ne, ne_of_isBareChar h (by decide), ne_of_isBareChar h (by decide)⟩

namespace IsPlainChar

variable {c : Char}

theorem ne_of_toNat_lt (h : IsPlainChar c) {d : Char} (hd : d.toNat < 0x20) : c ≠ d := by
  rintro rfl
  have := h.1
  omega

theorem not_needsEscape (h : IsPlainChar c) : needsEscape c = false := by
  obtain ⟨hlow, hdelete, -, -⟩ := h
  have hcontrol : ¬ c.toNat < 0x20 := by omega
  simp [needsEscape, hcontrol, hdelete]

theorem isTextChar (h : IsPlainChar c) : isTextChar c := by
  obtain ⟨hlow, hdelete, -, -⟩ := h
  simp [Toml.isTextChar, hlow, hdelete]

theorem escapeChar (h : IsPlainChar c) (multiline : Bool) : escapeChar multiline c = [c] := by
  obtain ⟨hlow, hdelete, -, hbackslash⟩ := id h
  have hcontrol : ¬ (c.toNat < 0x20 ∨ c.toNat = 0x7F) := by omega
  simp only [Toml.escapeChar, h.ne_of_toNat_lt (d := '\x08') (by decide),
    h.ne_of_toNat_lt (d := '\t') (by decide), h.ne_of_toNat_lt (d := '\n') (by decide),
    h.ne_of_toNat_lt (d := '\x0c') (by decide), h.ne_of_toNat_lt (d := '\x0d') (by decide),
    hbackslash, hcontrol, ↓reduceIte]

theorem plainStep (h : IsPlainChar c) : Quotes.basic.plainStep c = some ([c], .plain) := by
  have hmultiline : Quotes.basic.isMultiline = false := rfl
  have hmark : c ≠ Quotes.basic.mark := h.2.2.1
  simp [Quotes.plainStep, hmark, h.2.2.2, hmultiline, h.isTextChar]

end IsPlainChar

section Plain

variable {text : List Char}

theorem longestRun_eq_zero {c : Char} (h : ∀ d ∈ text, d ≠ c) : longestRun c text = 0 := by
  induction text with
  | nil => rfl
  | cons d rest ih =>
    obtain ⟨hd, hrest⟩ := List.forall_mem_cons.1 h
    simpa [longestRun, hd] using ih hrest

theorem chooseQuotes_plain (h : ∀ c ∈ text, IsPlainChar c) : chooseQuotes text = .basic := by
  have hescapes : text.any needsEscape = false :=
    List.any_eq_false.2 fun c hc => by simp [(h c hc).not_needsEscape]
  have hbackslash : '\\' ∉ text := fun hmem => (h _ hmem).2.2.2 rfl
  have hlines : '\n' ∉ text := fun hmem => (h _ hmem).ne_of_toNat_lt (by decide) rfl
  have hdoubles : longestRun '"' text = 0 := longestRun_eq_zero fun c hc => (h c hc).2.2.1
  simp [chooseQuotes, hescapes, hbackslash, hlines, hdoubles]

theorem escapeFrom_plain (h : ∀ c ∈ text, IsPlainChar c) (run : Nat) :
    escapeFrom false run text = text := by
  induction text generalizing run with
  | nil => rfl
  | cons c rest ih =>
    obtain ⟨hc, hrest⟩ := List.forall_mem_cons.1 h
    rw [escapeFrom, if_neg hc.2.2.1, hc.escapeChar, ih hrest]
    rfl

theorem writeString_plain {s : String} (h : ∀ c ∈ s.toList, IsPlainChar c) :
    writeString s = '"' :: (s.toList ++ ['"']) := by
  have hlines : '\n' ∉ s.toList := fun hmem => (h _ hmem).ne_of_toNat_lt (by decide) rfl
  simp [writeString, chooseQuotes_plain h, Quotes.hasEscapes, Quotes.mark, Quotes.isMultiline,
    escapeFrom_plain h]

/-- A string on one line ends at the first double quote. -/
theorem readFrom_plain (h : ∀ c ∈ text, IsPlainChar c) (rest : List Char) :
    Quotes.basic.readFrom .plain (text ++ '"' :: rest) = some (text, rest) := by
  induction text with
  | nil => cases rest <;> rfl
  | cons c text ih =>
    obtain ⟨hc, htext⟩ := List.forall_mem_cons.1 h
    have hstep : Quotes.basic.step .plain c = some ([c], .plain) := hc.plainStep
    have hends : Quotes.basic.ends? .plain (some c) = none := rfl
    rw [List.cons_append, Quotes.readFrom, hends, hstep]
    simp [ih htext]

theorem readString?_plain (h : ∀ c ∈ text, IsPlainChar c) (rest : List Char) :
    readString? true ('"' :: (text ++ '"' :: '\n' :: rest)) =
      some (String.ofList text, '\n' :: rest) := by
  have hread := readFrom_plain h ('\n' :: rest)
  rcases text with _ | ⟨c, text⟩
  · rfl
  · have hc : c ≠ '"' := (h c (by simp)).2.2.1
    rw [List.cons_append] at hread ⊢
    unfold readString?
    split <;> simp_all

/-- A string of plain characters is read as itself. -/
theorem writesItem_string {s : String} (h : ∀ c ∈ s.toList, IsPlainChar c) :
    WritesItem (writeString s) (.string s) := by
  rw [writeString_plain h]
  constructor
  · simp [isBlank]
  · intro rest
    have hread := readString?_plain h rest
    rw [String.ofList_toList] at hread
    simp [readValue, hread]

end Plain

/-! #### Integers -/

section Digits

variable {digits : List Char}

theorem not_mem_digits (h : ∀ c ∈ digits, c.isDigit) {d : Char} (hd : d.isDigit = false) :
    d ∉ digits := by
  intro hmem
  rw [h d hmem] at hd
  cases hd

theorem ungroup?_digits (h : ∀ c ∈ digits, c.isDigit) (hne : digits ≠ []) :
    ungroup? Char.isDigit digits = some digits := by
  induction digits with
  | nil => exact absurd rfl hne
  | cons c rest ih =>
    obtain ⟨hc, hrest⟩ := List.forall_mem_cons.1 h
    rcases rest with _ | ⟨d, rest⟩
    · simp [ungroup?, hc]
    · have hd : '_' ≠ d := List.ne_of_not_mem_cons (not_mem_digits hrest (by decide))
      have hmore := ih hrest (List.cons_ne_nil _ _)
      simp [ungroup?, hc, hd.symm, hmore]

theorem decimalDigits?_whole (h : Json.NumberText.IsWhole digits) :
    decimalDigits? digits = some digits := by
  obtain ⟨head, tail, rfl, hhead, htail, hzero⟩ := h
  have hdigits := ungroup?_digits (List.forall_mem_cons.2 ⟨hhead, htail⟩) (List.cons_ne_nil _ _)
  unfold decimalDigits?
  rw [hdigits]
  split
  · next heq =>
    obtain ⟨rfl, rfl⟩ := List.cons.inj (Option.some.inj heq)
    cases hzero rfl
  · rfl

theorem splitSign_digits (h : ∀ c ∈ digits, c.isDigit) : splitSign digits = (false, digits) := by
  unfold splitSign
  split
  · exact absurd List.mem_cons_self (not_mem_digits h (by decide))
  · exact absurd List.mem_cons_self (not_mem_digits h (by decide))
  · rfl

/-- A date has a hyphen. -/
theorem isDate_digits (h : ∀ c ∈ digits, c.isDigit) : isDate digits = false := by
  unfold isDate
  split
  · exact absurd (by simp) (not_mem_digits h (d := '-') (by decide))
  · rfl

/-- A time has a colon. -/
theorem isTime_digits (h : ∀ c ∈ digits, c.isDigit) (offset : Bool) :
    isTime offset digits = false := by
  have hdrop : dropTime? digits = none := by
    unfold dropTime?
    split
    · exact absurd (by simp) (not_mem_digits h (d := ':') (by decide))
    · rfl
  rw [isTime, hdrop]

theorem isDatetime_digits (h : ∀ c ∈ digits, c.isDigit) : isDatetime digits = false := by
  have hday := isDate_digits fun c hc => h c (List.mem_of_mem_take (i := 10) hc)
  simp [isDatetime, isDate_digits h, isTime_digits h, hday]

/-- A float has a point or an exponent. -/
theorem float?_digits (h : ∀ c ∈ digits, c.isDigit) : float? digits = none := by
  have hmantissa : ∀ c ∈ digits, (c ≠ 'e' && c ≠ 'E') = true := by
    intro c hc
    have hlower := ne_of_mem_of_not_mem hc (not_mem_digits h (d := 'e') (by decide))
    have hupper := ne_of_mem_of_not_mem hc (not_mem_digits h (d := 'E') (by decide))
    simp [hlower, hupper]
  have hwhole : ∀ c ∈ digits, decide (c ≠ '.') = true := by
    intro c hc
    simpa using ne_of_mem_of_not_mem hc (not_mem_digits h (d := '.') (by decide))
  have hwords : ¬ (digits = "inf".toList ∨ digits = "nan".toList) := by
    rintro (rfl | rfl)
    · exact not_mem_digits h (d := 'i') (by decide) (by decide +kernel)
    · exact not_mem_digits h (d := 'n') (by decide) (by decide +kernel)
  unfold float?
  rw [splitSign_digits h]
  simp only [hwords, List.takeWhile_eq_self_iff.2 hmantissa, List.dropWhile_eq_nil_iff.2 hmantissa,
    List.dropWhile_eq_nil_iff.2 hwhole, and_self, ↓reduceIte]

theorem integer?_whole (h : Json.NumberText.IsWhole digits) (hall : ∀ c ∈ digits, c.isDigit) :
    integer? digits = integerOf? (Nat.ofDigitChars 10 digits 0 : Nat) := by
  unfold integer?
  split
  · exact absurd (by simp) (not_mem_digits hall (d := 'x') (by decide))
  · exact absurd (by simp) (not_mem_digits hall (d := 'o') (by decide))
  · exact absurd (by simp) (not_mem_digits hall (d := 'b') (by decide))
  · rw [splitSign_digits hall]
    change (decimalDigits? digits).bind _ = _
    rw [decimalDigits?_whole h, Option.bind_some]
    exact congrArg integerOf? (if_neg Bool.false_ne_true)

end Digits

theorem integerOf?_natCast {n : Nat} (h : n < 0x8000000000000000) :
    integerOf? n = some (.integer n) := by
  have hfits : -0x8000000000000000 ≤ (n : Int) ∧ (n : Int) < 0x8000000000000000 := by omega
  exact if_pos hfits

theorem ofWord?_toDigits {n : Nat} (h : n < 0x8000000000000000) :
    Scalar.ofWord? (Nat.toDigits 10 n) = some (.integer n) := by
  have hwhole := Json.isWhole_toDigits n
  have hdigits : ∀ c ∈ Nat.toDigits 10 n, c.isDigit := Json.isDigit_of_mem_toDigits
  have htrue : Nat.toDigits 10 n ≠ "true".toList := by
    intro heq
    rw [heq] at hdigits
    exact not_mem_digits hdigits (d := 't') (by decide) (by decide +kernel)
  have hfalse : Nat.toDigits 10 n ≠ "false".toList := by
    intro heq
    rw [heq] at hdigits
    exact not_mem_digits hdigits (d := 'f') (by decide) (by decide +kernel)
  rw [Scalar.ofWord?, if_neg htrue, if_neg hfalse, isDatetime_digits hdigits, float?_digits hdigits,
    integer?_whole hwhole hdigits, Nat.ofDigitChars_ten_toDigits, integerOf?_natCast h]
  rfl

theorem isWordChar_of_isDigit {c : Char} (h : c.isDigit) : isWordChar c := by
  simp [isWordChar, isBareChar_of_isDigit h]

theorem readScalar_toDigits {n : Nat} (h : n < 0x8000000000000000) (rest : List Char) :
    readScalar (Nat.toDigits 10 n ++ '\n' :: rest) = some (.scalar (.integer n), '\n' :: rest) := by
  have hdigits : ∀ c ∈ Nat.toDigits 10 n, c.isDigit := Json.isDigit_of_mem_toDigits
  have hend : ∀ c ∈ ('\n' :: rest).head?, isWordChar c = false := by
    intro c hc
    obtain rfl : '\n' = c := by simpa using hc
    decide
  obtain ⟨htake, hdrop⟩ :=
    Json.NumberText.takeWhile_run (fun c hc => isWordChar_of_isDigit (hdigits c hc)) hend
  simp [readScalar, htake, hdrop, isDate_digits hdigits, ofWord?_toDigits h]

/-- A natural number within sixty-four bits with a sign is read as itself. -/
theorem writesItem_integer {n : Nat} (h : n < 0x8000000000000000) :
    WritesItem (Nat.toDigits 10 n) (.scalar (.integer n)) := by
  have hscalar := readScalar_toDigits h
  have hdigits : ∀ c ∈ Nat.toDigits 10 n, c.isDigit := Json.isDigit_of_mem_toDigits
  obtain ⟨head, tail, heq, hhead, -, -⟩ := Json.isWhole_toDigits n
  rw [heq] at hscalar ⊢
  have hbare := isBareChar_of_isDigit hhead
  constructor
  · simp [not_isBlank_of_isBareChar hbare]
  · intro rest
    have hbracket : head ≠ '[' := ne_of_isBareChar hbare (by decide)
    have hbrace : head ≠ '\x7b' := ne_of_isBareChar hbare (by decide)
    have hread := hscalar rest
    rw [List.cons_append] at hread ⊢
    unfold readValue
    split
    · next hcons => exact absurd (List.cons.inj hcons).1 hbracket
    · next hcons => exact absurd (List.cons.inj hcons).1 hbrace
    · rw [readString?_of_isBareChar hbare]
      exact hread

/-! ### Lines -/

/-- A bare key, an equals sign and a value, with one blank on either side. -/
theorem readPair_append {read : Reader Item} {key value rest : List Char} {item : Item}
    (hkey : IsBare key) (hblank : ∀ c ∈ value.head?, isBlank c = false)
    (hread : read value = some (item, rest)) :
    readPair read (key ++ " = ".toList ++ value) =
      some (([], String.ofList key, item), dropBlanks rest) := by
  have hsplit : key ++ " = ".toList ++ value = key ++ ' ' :: '=' :: (' ' :: value) := by simp
  have hpart : readKey (maxNesting - 1) (key ++ ' ' :: '=' :: (' ' :: value)) =
      some ([String.ofList key], '=' :: ' ' :: value) := readKey_append hkey _ _
  have hdrop : dropBlanks (' ' :: value) = value := by
    rcases value with _ | ⟨c, value⟩
    · rfl
    · exact dropBlanks_cons (hblank c rfl) value
  rw [hsplit, readPair, hpart]
  simp only [Option.bind_eq_bind, Option.bind_some, hdrop, hread]
  rfl

/-- A line that gives an entry, with its end. -/
def WritesLine (line : List Char) (entry : String × Item) : Prop :=
  IsBare entry.1.toList ∧
    ∃ value, WritesItem value entry.2 ∧
      line = entry.1.toList ++ " = ".toList ++ value ++ ['\n']

theorem writesLine_stringLine {key value : String} (hkey : IsBare key.toList)
    (hvalue : ∀ c ∈ value.toList, IsPlainChar c) :
    WritesLine (stringLine key value) (key, .string value) :=
  ⟨hkey, _, writesItem_string hvalue, rfl⟩

theorem integerLine?_eq_none_iff {key : String} {n : Nat} :
    integerLine? key n = none ↔ 0x8000000000000000 ≤ n := by
  simp [integerLine?]

theorem writesLine_integerLine? {key : String} {n : Nat} (hkey : IsBare key.toList)
    {line : List Char} (hline : integerLine? key n = some line) :
    WritesLine line (key, .scalar (.integer n)) := by
  have hfits : n < 0x8000000000000000 := by
    by_contra h
    rw [integerLine?, if_neg h] at hline
    cases hline
  rw [integerLine?, if_pos hfits] at hline
  exact ⟨hkey, _, writesItem_integer hfits, (Option.some.inj hline).symm⟩

variable {line : List Char} {entry : String × Item}

theorem exists_bare_cons (h : WritesLine line entry) :
    ∃ c more, line = c :: more ∧ isBareChar c := by
  obtain ⟨hkey, value, -, rfl⟩ := h
  rcases hchars : entry.1.toList with _ | ⟨c, more⟩
  · exact absurd hchars hkey.1
  · exact ⟨c, _, rfl, hkey.forall_mem c (by simp [hchars])⟩

/-- A line is taken from the front of a text up to its end. -/
theorem readLine_append (h : WritesLine line entry) (rest : List Char) :
    readLine (line ++ rest) = some (.entry [] entry.1 entry.2, rest) := by
  obtain ⟨c, more, hhead, hc⟩ := exists_bare_cons h
  obtain ⟨hkey, value, ⟨hblank, hvalue⟩, rfl⟩ := h
  obtain ⟨key, item⟩ := entry
  have hpair : readPair (readValue maxNesting)
      (key.toList ++ " = ".toList ++ value ++ ['\n'] ++ rest) =
      some (([], key, item), '\n' :: rest) := by
    have hnext : ∀ c ∈ (value ++ '\n' :: rest).head?, isBlank c = false := by
      rcases value with _ | ⟨d, value⟩
      · simp [isBlank]
      · exact hblank
    have hend : dropBlanks ('\n' :: rest) = '\n' :: rest := rfl
    have hread := readPair_append hkey hnext (hvalue rest)
    rw [String.ofList_toList, hend] at hread
    simpa [List.append_assoc] using hread
  have hbracket : c ≠ '[' := ne_of_isBareChar hc (by decide)
  have hfinish : finishLine? ('\n' :: rest) = some rest := rfl
  unfold readLine
  split
  · next heq =>
    rw [hhead] at heq
    exact absurd (List.cons.inj heq).1 hbracket
  · next heq =>
    rw [hhead] at heq
    exact absurd (List.cons.inj heq).1 hbracket
  · rw [hpair]
    simp [hfinish]

/-- Nothing is dropped in front of a bare character. -/
theorem dropLines?_of_isBareChar {c : Char} (hc : isBareChar c) (bound : Nat) (rest : List Char) :
    dropLines? bound (c :: rest) = some (c :: rest) := by
  rcases bound with _ | bound
  · rfl
  · have hcomment : c ≠ '#' := ne_of_isBareChar hc (by decide)
    have hfeed : c ≠ '\n' := ne_of_isBareChar hc (by decide)
    have hreturn : c ≠ '\x0d' := ne_of_isBareChar hc (by decide)
    unfold dropLines?
    rw [dropBlanks_cons (not_isBlank_of_isBareChar hc)]
    split <;> simp_all

section Document

variable {lines : List (List Char)} {entries : Entries}

theorem length_le_of_writesLines (h : List.Forall₂ WritesLine lines entries) :
    lines.length ≤ lines.flatten.length := by
  induction h with
  | nil => exact Nat.zero_le _
  | cons hline _ ih =>
    obtain ⟨c, more, rfl, -⟩ := exists_bare_cons hline
    simp only [List.flatten_cons, List.length_append, List.length_cons]
    omega

theorem isBareChar_head_of_writesLines (h : List.Forall₂ WritesLine lines entries) {c : Char}
    (hc : c ∈ lines.flatten.head?) : isBareChar c := by
  rcases h with _ | ⟨hline, -⟩
  · cases hc
  · obtain ⟨d, more, rfl, hd⟩ := exists_bare_cons hline
    obtain rfl : d = c := by simpa using hc
    exact hd

theorem readLines_flatten (h : List.Forall₂ WritesLine lines entries) {bound : Nat}
    (hbound : lines.length < bound) :
    readLines bound lines.flatten = some (entries.map fun e => .entry [] e.1 e.2) := by
  induction h generalizing bound with
  | nil =>
    obtain ⟨bound, rfl⟩ := Nat.exists_eq_succ_of_ne_zero hbound.ne'
    rfl
  | @cons line entry lines entries hline hlines ih =>
    obtain ⟨bound, rfl⟩ := Nat.exists_eq_succ_of_ne_zero (Nat.ne_zero_of_lt hbound)
    have hmore := ih (Nat.lt_of_succ_lt_succ hbound)
    have hread := readLine_append hline lines.flatten
    obtain ⟨c, more, rfl, hc⟩ := exists_bare_cons hline
    rw [List.cons_append] at hread
    rw [List.flatten_cons, List.cons_append, readLines, dropLines?_of_isBareChar hc]
    simp [hread, hmore]

theorem addToSection_new {key : String} {item : Item} (h : Json.find? key entries = none) :
    addToSection [] [] key item entries = some (entries ++ [(key, item)]) := by
  simp [addToSection, addEntry, descend, h]

/-- Entries with new names are added at the end. -/
theorem foldlM_add_entries (entries more : Entries) (h : ((entries ++ more).map (·.1)).Nodup) :
    (more.map fun e => Line.entry [] e.1 e.2).foldlM Section.add ⟨[], entries⟩ =
      some ⟨[], entries ++ more⟩ := by
  induction more generalizing entries with
  | nil => simp
  | cons entry more ih =>
    obtain ⟨key, item⟩ := entry
    obtain ⟨hnew, -⟩ := Json.new_of_nodup (by rwa [List.map_append] at h) item
    have hrest := ih (entries ++ [(key, item)]) (by simpa using h)
    rw [List.append_assoc] at hrest
    simpa [Section.add, addToSection_new hnew] using hrest

/-- Lines that give bare keys values write the document of their entries. -/
theorem documentOf?_of_writesLines (h : List.Forall₂ WritesLine lines entries)
    (hnames : (entries.map (·.1)).Nodup) :
    documentOf? (String.ofList lines.flatten) = some entries := by
  have hread := readLines_flatten h (Nat.lt_succ_of_le (length_le_of_writesLines h))
  have hlines : linesOf? (String.ofList lines.flatten) =
      some (entries.map fun e => .entry [] e.1 e.2) := by
    unfold linesOf?
    rw [String.toList_ofList]
    split
    · next heq =>
      have hmark := isBareChar_head_of_writesLines h (c := '\ufeff') (by simp [heq])
      exact absurd hmark (by decide)
    · exact hread
  rw [documentOf?, hlines]
  have hfold := foldlM_add_entries [] entries (by simpa using hnames)
  simp [hfold]

end Document

end TypedStore.Toml
