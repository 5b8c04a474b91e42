/-
  TypedStore/Proofs/Codec/Phrases.lean
  ====================================
  **The grammar of JSON, as it is defined character by character.**

  A text is derived from its parts (`IsPhrase`): words and strings, and the arrays and objects that
  are put together from elements and members with blanks anywhere between them. Nothing bounds the size
  of a number, the depth of nesting or how often a name stands in an object, and a `\u` escape need not
  be half of anything.

  The grammar says nothing of tokens or of a machine. What it calls a string and a word is what the
  readers of these accept (`pieces?_isSome_iff`, `NumberText.ofChars?_isSome_iff`).
-/
import TypedStore.Json.Raw
import TypedStore.Proofs.Codec.Lexing

namespace TypedStore.Json

def AllBlank (text : List Char) : Prop := ∀ c ∈ text, isBlank c

theorem allBlank_nil : AllBlank [] := fun _ hc => nomatch hc

/-! ### Strings -/

def IsHexDigit (c : Char) : Prop :=
  '0' ≤ c ∧ c ≤ '9' ∨ 'a' ≤ c ∧ c ≤ 'f' ∨ 'A' ≤ c ∧ c ≤ 'F'

/-- What may stand between the quotes of a string. -/
inductive IsBody : List Char → Prop where
  | nil : IsBody []
  | plain {c : Char} {rest : List Char} : isPlain c → IsBody rest → IsBody (c :: rest)
  | short {c : Char} {rest : List Char} :
    c ∈ ['"', '\\', '/', 'b', 'f', 'n', 'r', 't'] → IsBody rest → IsBody ('\\' :: c :: rest)
  | unit {a b c d : Char} {rest : List Char} :
    IsHexDigit a → IsHexDigit b → IsHexDigit c → IsHexDigit d → IsBody rest →
      IsBody ('\\' :: 'u' :: a :: b :: c :: d :: rest)

theorem hexDigit?_isSome_iff {c : Char} : (hexDigit? c).isSome ↔ IsHexDigit c := by
  unfold hexDigit? IsHexDigit
  split
  · next h => simp [h]
  · next h₁ =>
    split
    · next h => simp [h]
    · next h₂ =>
      split
      · next h => simp [h]
      · next h₃ => simp [h₁, h₂, h₃]

theorem hexNumber?_isSome_iff {a b c d : Char} :
    (hexNumber? [a, b, c, d]).isSome ↔
      IsHexDigit a ∧ IsHexDigit b ∧ IsHexDigit c ∧ IsHexDigit d := by
  simp only [← hexDigit?_isSome_iff, hexNumber?, List.foldlM_cons, List.foldlM_nil]
  cases hexDigit? a <;> cases hexDigit? b <;> cases hexDigit? c <;> cases hexDigit? d <;> simp

theorem shortEscape?_isSome_iff {c : Char} :
    (shortEscape? c).isSome ↔ c ∈ ['"', '\\', '/', 'b', 'f', 'n', 'r', 't'] := by
  unfold shortEscape?
  repeat' split
  all_goals simp_all

theorem pieces?_escape {c : Char} {rest : List Char} (h : c ≠ 'u') :
    pieces? ('\\' :: c :: rest) =
      (shortEscape? c).bind fun e => (pieces? rest).map (.char e :: ·) := by
  conv => lhs; unfold pieces?
  split
  · next heq => cases heq
  · next heq => exact absurd (by cases heq; rfl) h
  · next heq =>
    cases heq
    cases shortEscape? c <;> cases pieces? rest <;> rfl
  · next hne heq =>
    cases heq
    exact absurd rfl (hne c rest rfl)

/-- The body of a string is one that can be taken apart. -/
theorem pieces?_isSome_iff {body : List Char} : (pieces? body).isSome ↔ IsBody body := by
  constructor
  · intro h
    fun_induction pieces? body with
    | case1 => exact .nil
    | case2 a b c d rest ih =>
      cases hn : hexNumber? [a, b, c, d] with
      | none => simp [hn] at h
      | some n =>
        cases hrest : pieces? rest with
        | none => simp [hn, hrest] at h
        | some ps =>
          obtain ⟨ha, hb, hc, hd⟩ := hexNumber?_isSome_iff.1 (by rw [hn]; rfl)
          exact .unit ha hb hc hd (ih (by rw [hrest]; rfl))
    | case3 e rest _ ih =>
      cases he : shortEscape? e with
      | none => simp [he] at h
      | some c =>
        cases hrest : pieces? rest with
        | none => simp [he, hrest] at h
        | some ps => exact .short (shortEscape?_isSome_iff.1 (by rw [he]; rfl)) (ih (by rw [hrest]; rfl))
    | case4 c rest _ _ hplain ih => exact .plain hplain (ih (by simpa using h))
    | case5 => simp at h
  · intro h
    induction h with
    | nil => rfl
    | plain hplain _ ih =>
      rw [pieces?_plain hplain]
      simpa using ih
    | @short c rest hshort _ ih =>
      obtain ⟨e, he⟩ := Option.isSome_iff_exists.1 (shortEscape?_isSome_iff.2 hshort)
      obtain ⟨ps, hps⟩ := Option.isSome_iff_exists.1 ih
      have hu : c ≠ 'u' := by
        rintro rfl
        exact absurd hshort (by decide)
      rw [pieces?_escape hu, he]
      simp [hps]
    | @unit a b c d rest ha hb hc hd _ ih =>
      obtain ⟨n, hn⟩ := Option.isSome_iff_exists.1 (hexNumber?_isSome_iff.2 ⟨ha, hb, hc, hd⟩)
      obtain ⟨ps, hps⟩ := Option.isSome_iff_exists.1 ih
      simp [pieces?, hn, hps]

/-! ### Words -/

namespace NumberText

/-- The exponent of a number, if there is one. -/
def IsExponent (text : List Char) : Prop :=
  text = [] ∨ ∃ mark digits, (mark = 'e' ∨ mark = 'E') ∧ digits ≠ [] ∧ (∀ c ∈ digits, c.isDigit) ∧
    (text = mark :: digits ∨ text = mark :: '+' :: digits ∨ text = mark :: '-' :: digits)

theorem natOfDigits?_isSome_iff {digits : List Char} :
    (natOfDigits? digits).isSome ↔ digits ≠ [] ∧ ∀ c ∈ digits, c.isDigit := by
  unfold natOfDigits?
  split
  · next h => simpa using h
  · next h => simpa using h

theorem signedOfDigits?_minus (digits : List Char) :
    (signedOfDigits? ('-' :: digits)).isSome = (natOfDigits? digits).isSome := by
  rw [signedOfDigits?]
  cases natOfDigits? digits <;> rfl

theorem signedOfDigits?_isSome_iff {text : List Char} :
    (signedOfDigits? text).isSome ↔
      ∃ digits, (natOfDigits? digits).isSome ∧
        (text = digits ∨ text = '+' :: digits ∨ text = '-' :: digits) := by
  constructor
  · intro h
    by_cases hminus : ∃ digits, text = '-' :: digits
    · obtain ⟨digits, rfl⟩ := hminus
      exact ⟨digits, by rwa [signedOfDigits?_minus] at h, .inr (.inr rfl)⟩
    unfold signedOfDigits? at h
    split at h
    · next digits => exact absurd ⟨digits, rfl⟩ hminus
    · next digits => exact ⟨digits, by rwa [Option.isSome_map] at h, .inr (.inl rfl)⟩
    · exact ⟨text, by rwa [Option.isSome_map] at h, .inl rfl⟩
  · rintro ⟨digits, hdigits, rfl | rfl | rfl⟩
    · obtain ⟨hne, hall⟩ := natOfDigits?_isSome_iff.1 hdigits
      unfold signedOfDigits?
      split
      · exact absurd (hall '-' List.mem_cons_self) (by decide)
      · exact absurd (hall '+' List.mem_cons_self) (by decide)
      · rwa [Option.isSome_map]
    · rwa [signedOfDigits?, Option.isSome_map]
    · rwa [signedOfDigits?_minus]

theorem exponentOfChars?_isSome_iff {text : List Char} :
    (exponentOfChars? text).isSome ↔ IsExponent text := by
  cases text with
  | nil => simp [exponentOfChars?, IsExponent]
  | cons mark rest =>
    by_cases hmark : mark = 'e' ∨ mark = 'E'
    · simp only [exponentOfChars?, hmark, ↓reduceIte, Option.isSome_map, signedOfDigits?_isSome_iff,
        natOfDigits?_isSome_iff, IsExponent]
      constructor
      · rintro ⟨digits, ⟨hne, hall⟩, h⟩
        exact .inr ⟨mark, digits, hmark, hne, hall, by simpa using h⟩
      · rintro (h | ⟨mark', digits, -, hne, hall, h⟩)
        · cases h
        · refine ⟨digits, ⟨hne, hall⟩, ?_⟩
          rcases h with h | h | h <;> simp [(List.cons.inj h).2]
    · simp only [exponentOfChars?, hmark, ↓reduceIte, Option.isSome_none, Bool.false_eq_true,
        false_iff, IsExponent]
      rintro (h | ⟨mark', digits, hmark', -, -, h⟩)
      · cases h
      · apply hmark
        rcases h with h | h | h <;> rwa [(List.cons.inj h).1]

/-- A number as it may be written: a sign or none, digits without a needless zero before them, and, if
    they are there, a point with digits and an exponent. -/
def IsNumber (text : List Char) : Prop :=
  ∃ negative whole fraction tail, IsWhole whole ∧ (∀ c ∈ fraction, c.isDigit) ∧ IsExponent tail ∧
    text = sign negative ++ (whole ++ (point fraction ++ tail))

theorem sign_splitSign (text : List Char) :
    text = sign (splitSign text).1 ++ (splitSign text).2 := by
  unfold splitSign
  split <;> simp [sign]

theorem point_of_splitFraction? {text fraction rest : List Char}
    (h : splitFraction? text = some (fraction, rest)) :
    (∀ c ∈ fraction, c.isDigit) ∧ text = point fraction ++ rest := by
  unfold splitFraction? at h
  split at h
  · next digits =>
    dsimp only at h
    split at h
    · cases h
    · next hne =>
      cases h
      refine ⟨fun c hc => List.mem_takeWhile_imp hc, ?_⟩
      rw [point, if_neg hne, List.cons_append, List.takeWhile_append_dropWhile]
  · cases h
    exact ⟨by simp, by simp [point]⟩

theorem isWhole_of_all_isDigit {digits : List Char} (hdigits : ∀ c ∈ digits, c.isDigit)
    (h : ¬ (digits = [] ∨ digits.head? = some '0' ∧ digits.length ≠ 1)) : IsWhole digits := by
  cases digits with
  | nil => exact absurd (.inl rfl) h
  | cons head tail =>
    refine ⟨head, tail, rfl, hdigits head List.mem_cons_self,
      fun c hc => hdigits c (List.mem_cons_of_mem _ hc), ?_⟩
    rintro rfl
    by_contra hne
    exact h (.inr ⟨rfl, by simpa using hne⟩)

/-- What is read as a number is a number as it may be written. -/
theorem ofChars?_isSome_iff {text : List Char} : (ofChars? text).isSome ↔ IsNumber text := by
  constructor
  · intro h
    unfold ofChars? at h
    split at h
    next negative rest hsign =>
    have htext : text = sign negative ++ rest := by
      have := sign_splitSign text
      rwa [hsign] at this
    dsimp only at h
    split at h
    · cases h
    next hwhole =>
    cases hfraction : splitFraction? (rest.dropWhile Char.isDigit) with
    | none => simp [hfraction] at h
    | some split =>
      obtain ⟨fraction, tail⟩ := split
      cases hexponent : exponentOfChars? tail with
      | none => simp [hfraction, hexponent] at h
      | some exponent =>
        obtain ⟨hdigits, hdrop⟩ := point_of_splitFraction? hfraction
        refine ⟨negative, rest.takeWhile Char.isDigit, fraction, tail,
          isWhole_of_all_isDigit (fun c hc => List.mem_takeWhile_imp hc) hwhole, hdigits,
          exponentOfChars?_isSome_iff.1 (by rw [hexponent]; rfl), ?_⟩
        rw [← hdrop, List.takeWhile_append_dropWhile]
        exact htext
  · rintro ⟨negative, whole, fraction, tail, hwhole, hfraction, htail, rfl⟩
    obtain ⟨exponent, hexponent⟩ :=
      Option.isSome_iff_exists.1 (exponentOfChars?_isSome_iff.2 htail)
    rw [ofChars?_parts negative fraction tail hwhole hfraction hexponent]
    rfl

theorem IsNumber.isWordChar {text : List Char} (h : IsNumber text) :
    text ≠ [] ∧ ∀ c ∈ text, IsWordChar c := by
  obtain ⟨negative, whole, fraction, tail, ⟨head, more, rfl, hhead, hmore, -⟩, hfraction, htail, rfl⟩ := h
  refine ⟨by simp, fun c hc => ?_⟩
  have hdigit : ∀ {digits : List Char}, (∀ c ∈ digits, c.isDigit) → ∀ c ∈ digits, IsWordChar c :=
    fun h c hc => isWordChar_of_isDigit (h c hc)
  rcases List.mem_append.1 hc with hc | hc
  · cases negative with
    | true =>
      obtain rfl : c = '-' := by simpa [sign] using hc
      exact isWordChar_minus
    | false => cases hc
  rcases List.mem_append.1 hc with hc | hc
  · rcases List.mem_cons.1 hc with rfl | hc
    · exact isWordChar_of_isDigit hhead
    · exact hdigit hmore c hc
  rcases List.mem_append.1 hc with hc | hc
  · unfold point at hc
    split at hc
    · cases hc
    · rcases List.mem_cons.1 hc with rfl | hc
      · exact ⟨by decide, by decide, by decide⟩
      · exact hdigit hfraction c hc
  · rcases htail with rfl | ⟨mark, digits, hmark, -, hdigits, htail⟩
    · cases hc
    · have hword : IsWordChar mark := by
        rcases hmark with rfl | rfl <;> exact ⟨by decide, by decide, by decide⟩
      have hplus : IsWordChar '+' := ⟨by decide, by decide, by decide⟩
      rcases htail with rfl | rfl | rfl <;> simp only [List.mem_cons] at hc
      · rcases hc with rfl | hc
        · exact hword
        · exact hdigit hdigits c hc
      · rcases hc with rfl | rfl | hc
        · exact hword
        · exact hplus
        · exact hdigit hdigits c hc
      · rcases hc with rfl | rfl | hc
        · exact hword
        · exact isWordChar_minus
        · exact hdigit hdigits c hc

end NumberText

/-- A literal name or a number. -/
def IsWord (text : List Char) : Prop :=
  text = "null".toList ∨ text = "true".toList ∨ text = "false".toList ∨ NumberText.IsNumber text

theorem IsWord.isWordChar {text : List Char} (h : IsWord text) :
    text ≠ [] ∧ ∀ c ∈ text, IsWordChar c := by
  have hname : ∀ name : List Char, name ≠ [] → (∀ c ∈ name, c.isAlphanum) →
      name ≠ [] ∧ ∀ c ∈ name, IsWordChar c :=
    fun name hne hall => ⟨hne, fun c hc => isWordChar_of_isAlphanum (hall c hc)⟩
  rcases h with rfl | rfl | rfl | h
  · exact hname _ (by simp) (by simp)
  · exact hname _ (by simp) (by simp)
  · exact hname _ (by simp) (by simp)
  · exact h.isWordChar

/-! ### Values -/

/-- The kinds of text that a value is put together from. -/
inductive Phrase where
  /-- A value without blanks around it. -/
  | value
  /-- A value with the blanks around it. -/
  | element
  /-- Elements with commas between them. -/
  | elements
  /-- A name, a colon and an element. -/
  | member
  /-- Members with commas between them. -/
  | members

inductive IsPhrase : Phrase → List Char → Prop where
  | word {text : List Char} : IsWord text → IsPhrase .value text
  | string {body : List Char} : IsBody body → IsPhrase .value ('"' :: (body ++ ['"']))
  | emptyArray {blanks : List Char} : AllBlank blanks → IsPhrase .value ('[' :: (blanks ++ [']']))
  | array {inner : List Char} : IsPhrase .elements inner → IsPhrase .value ('[' :: (inner ++ [']']))
  | emptyObject {blanks : List Char} :
    AllBlank blanks → IsPhrase .value ('\x7b' :: (blanks ++ ['\x7d']))
  | object {inner : List Char} :
    IsPhrase .members inner → IsPhrase .value ('\x7b' :: (inner ++ ['\x7d']))
  | element {before text after : List Char} :
    AllBlank before → IsPhrase .value text → AllBlank after →
      IsPhrase .element (before ++ (text ++ after))
  | firstElement {text : List Char} : IsPhrase .element text → IsPhrase .elements text
  | nextElement {texts text : List Char} :
    IsPhrase .elements texts → IsPhrase .element text → IsPhrase .elements (texts ++ ',' :: text)
  | member {before body between text : List Char} :
    AllBlank before → IsBody body → AllBlank between → IsPhrase .element text →
      IsPhrase .member (before ++ '"' :: (body ++ '"' :: (between ++ ':' :: text)))
  | firstMember {text : List Char} : IsPhrase .member text → IsPhrase .members text
  | nextMember {texts text : List Char} :
    IsPhrase .members texts → IsPhrase .member text → IsPhrase .members (texts ++ ',' :: text)

end TypedStore.Json
