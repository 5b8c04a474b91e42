/-
  TypedStore/Proofs/Codec/Lexing.lean
  ===================================
  **The tokens of a written tree.**

  The text of a tree is cut into the tokens that the tree says (`asTokens`), whatever follows it,
  as long as that does not go on with a word (`lex_write_append`).
-/
import TypedStore.Json.Printer
import TypedStore.Json.Token
import TypedStore.Proofs.Codec.NumberText

namespace TypedStore.Json

/-! ### Words -/

/-- A character that does not end a word. -/
def IsWordChar (c : Char) : Prop := isBlank c = false ∧ c ≠ '"' ∧ Token.ofMark? c = none

/-- A text that does not go on with a word. -/
def Delimits (rest : List Char) : Prop := ∀ c ∈ rest.head?, ¬ IsWordChar c

theorem delimits_nil : Delimits [] := by
  intro c hc
  cases hc

theorem delimits_cons {c : Char} {rest : List Char} (h : ¬ IsWordChar c) :
    Delimits (c :: rest) := by
  intro d hd
  obtain rfl : c = d := by simpa using hd
  exact h

theorem not_isWordChar_of_mark {c : Char} {mark : Token} (h : Token.ofMark? c = some mark) :
    ¬ IsWordChar c := by
  rintro ⟨_, _, hnone⟩
  rw [h] at hnone
  cases hnone

theorem delimits_mark {c : Char} {mark : Token} (rest : List Char)
    (h : Token.ofMark? c = some mark) : Delimits (c :: rest) :=
  delimits_cons (not_isWordChar_of_mark h)

theorem lexFrom_word {text rest : List Char} (blanks read : List Char)
    (htext : ∀ c ∈ text, IsWordChar c) (hrest : Delimits rest) :
    lexFrom (.word blanks read) (text ++ rest) =
      ⟨blanks.reverse, .word (read.reverse ++ text)⟩ :: lex rest := by
  induction text generalizing read with
  | nil =>
    cases rest with
    | nil => simp [lexFrom, lex]
    | cons c rest =>
      -- The character ends the word, and it is read the same way between tokens.
      have hend := hrest c rfl
      simp only [List.nil_append, List.append_nil, lex, lexFrom]
      by_cases hblank : isBlank c
      · simp [hblank]
      · by_cases hquote : c = '"'
        · have hnot : isBlank '"' = false := by decide
          simp [hquote, hnot]
        · cases hmark : Token.ofMark? c with
          | some mark => simp [hblank, hquote]
          | none => exact absurd ⟨by simpa using hblank, hquote, hmark⟩ hend
  | cons c text ih =>
    obtain ⟨hblank, hquote, hmark⟩ := htext c List.mem_cons_self
    have hmore : ∀ d ∈ text, IsWordChar d := fun d hd => htext d (List.mem_cons_of_mem _ hd)
    simp only [List.cons_append, lexFrom, hblank, hquote, hmark, Bool.false_eq_true, ↓reduceIte]
    rw [ih (c :: read) hmore]
    simp

theorem lex_word_append {text rest : List Char} (hne : text ≠ [])
    (htext : ∀ c ∈ text, IsWordChar c) (hrest : Delimits rest) :
    lex (text ++ rest) = ⟨[], .word text⟩ :: lex rest := by
  cases text with
  | nil => exact absurd rfl hne
  | cons c text =>
    obtain ⟨hblank, hquote, hmark⟩ := htext c List.mem_cons_self
    have hmore : ∀ d ∈ text, IsWordChar d := fun d hd => htext d (List.mem_cons_of_mem _ hd)
    simp only [List.cons_append, lex, lexFrom, hblank, hquote, hmark, Bool.false_eq_true,
      ↓reduceIte]
    exact lexFrom_word [] [c] hmore hrest

theorem lex_mark {c : Char} {mark : Token} (rest : List Char) (h : Token.ofMark? c = some mark) :
    lex (c :: rest) = ⟨[], mark⟩ :: lex rest := by
  have hblank : isBlank c = false := by
    by_contra hc
    simp only [isBlank, Bool.not_eq_false, Bool.or_eq_true, decide_eq_true_eq] at hc
    rcases hc with ((rfl | rfl) | rfl) | rfl <;> simp [Token.ofMark?] at h
  have hquote : c ≠ '"' := by
    rintro rfl
    simp [Token.ofMark?] at h
  simp [lex, lexFrom, hblank, hquote, h]

/-! ### Strings -/

theorem digitChar_ne {n : Nat} (h : n < 16) : Nat.digitChar n ≠ '\\' ∧ Nat.digitChar n ≠ '"' := by
  revert n
  decide

/-- A written character leaves the cutting inside its string. -/
theorem lexFrom_escapeChar (blanks body : List Char) (c : Char) (rest : List Char) :
    lexFrom (.string blanks body false) (escapeChar c ++ rest) =
      lexFrom (.string blanks ((escapeChar c).reverse ++ body) false) rest := by
  by_cases hquote : c = '"'
  · subst hquote
    simp [escapeChar, lexFrom]
  by_cases hslash : c = '\\'
  · subst hslash
    simp [escapeChar, lexFrom]
  unfold escapeChar
  simp only [hquote, hslash, ↓reduceIte]
  split
  · simp [lexFrom]
  split
  · simp [lexFrom]
  split
  · simp [lexFrom]
  split
  · simp [lexFrom]
  split
  · simp [lexFrom]
  split
  · next hlow =>
    obtain ⟨h₁, h₂⟩ := digitChar_ne (n := c.toNat / 16) (by omega)
    obtain ⟨h₃, h₄⟩ := digitChar_ne (n := c.toNat % 16) (by omega)
    simp [lexFrom, h₁, h₂, h₃, h₄]
  · simp [lexFrom, hquote, hslash]

theorem lexFrom_body (blanks read cs rest : List Char) :
    lexFrom (.string blanks read false) (cs.flatMap escapeChar ++ '"' :: rest) =
      ⟨blanks.reverse, .string (read.reverse ++ cs.flatMap escapeChar)⟩ :: lex rest := by
  induction cs generalizing read with
  | nil => simp [lexFrom, lex]
  | cons c cs ih =>
    rw [List.flatMap_cons, List.append_assoc, lexFrom_escapeChar, ih]
    simp

theorem lex_writeString_append (s : String) (rest : List Char) :
    lex (writeString s ++ rest) = ⟨[], .string (bodyOfString s)⟩ :: lex rest := by
  have hquote : lex ('"' :: (bodyOfString s ++ '"' :: rest)) =
      lexFrom (.string [] [] false) (bodyOfString s ++ '"' :: rest) := by
    simp [lex, lexFrom, isBlank]
  have hbody := lexFrom_body [] [] s.toList rest
  simp only [writeString, List.cons_append, List.append_assoc, List.nil_append]
  rw [hquote]
  exact hbody

/-! ### Literal names and numbers -/

theorem isWordChar_of_isAlphanum {c : Char} (h : c.isAlphanum) : IsWordChar c := by
  refine ⟨?_, ?_, ?_⟩
  · by_contra hblank
    simp only [isBlank, Bool.not_eq_false, Bool.or_eq_true, decide_eq_true_eq] at hblank
    rcases hblank with ((rfl | rfl) | rfl) | rfl <;> exact absurd h (by decide)
  · rintro rfl
    exact absurd h (by decide)
  · unfold Token.ofMark?
    repeat' split
    all_goals first
      | rfl
      | (next heq => rw [heq] at h; exact absurd h (by decide))

theorem isWordChar_of_isDigit {c : Char} (h : c.isDigit) : IsWordChar c :=
  isWordChar_of_isAlphanum (by simp [Char.isAlphanum, h])

theorem isWordChar_minus : IsWordChar '-' := by
  refine ⟨by decide, by decide, by decide⟩

theorem isWordChar_of_mem_positional {digits : List Char} {point : Int}
    (hdigits : ∀ c ∈ digits, c.isDigit) :
    ∀ c ∈ Layout.positional digits point, IsWordChar c := by
  have hpoint : IsWordChar '.' := ⟨by decide, by decide, by decide⟩
  have hzero : IsWordChar '0' := isWordChar_of_isDigit (by decide)
  intro c hc
  unfold Layout.positional at hc
  split at hc
  · simp only [List.cons_append, List.mem_cons, List.mem_append, List.mem_replicate] at hc
    rcases hc with rfl | rfl | ⟨_, rfl⟩ | hc
    · exact hzero
    · exact hpoint
    · exact hzero
    · exact isWordChar_of_isDigit (hdigits c hc)
  split at hc
  · simp only [List.mem_append, List.mem_replicate, List.mem_cons, List.not_mem_nil,
      or_false] at hc
    rcases hc with (hc | ⟨_, rfl⟩) | rfl | rfl
    · exact isWordChar_of_isDigit (hdigits c hc)
    · exact hzero
    · exact hpoint
    · exact hzero
  · simp only [List.mem_append, List.mem_cons] at hc
    rcases hc with hc | rfl | hc
    · exact isWordChar_of_isDigit (hdigits c (List.mem_of_mem_take hc))
    · exact hpoint
    · exact isWordChar_of_isDigit (hdigits c (List.mem_of_mem_drop hc))

theorem isWordChar_of_mem_scientific {digits : List Char} {point : Int}
    (hdigits : ∀ c ∈ digits, c.isDigit) :
    ∀ c ∈ Layout.scientific digits point, IsWordChar c := by
  have hpoint : IsWordChar '.' := ⟨by decide, by decide, by decide⟩
  have hmark : IsWordChar 'e' := ⟨by decide, by decide, by decide⟩
  have hplus : IsWordChar '+' := ⟨by decide, by decide, by decide⟩
  intro c hc
  simp only [Layout.scientific, List.mem_append, List.mem_cons] at hc
  rcases hc with (hc | hc) | rfl | rfl | hc
  · exact isWordChar_of_isDigit (hdigits c (List.mem_of_mem_take hc))
  · cases htail : digits.tail with
    | nil => simp [htail] at hc
    | cons d rest =>
      rw [htail] at hc
      rcases List.mem_cons.1 hc with rfl | hc
      · exact hpoint
      · exact isWordChar_of_isDigit (hdigits c (List.mem_of_mem_tail (htail ▸ hc)))
  · exact hmark
  · split
    · exact isWordChar_minus
    · exact hplus
  · exact isWordChar_of_isDigit (isDigit_of_mem_toDigits c hc)

theorem isWordChar_of_mem_layout (layout : Layout) (d : Decimal) :
    ∀ c ∈ layout.write d, IsWordChar c := by
  have hdigits : ∀ c ∈ d.digits, c.isDigit := isDigit_of_mem_toDigits
  unfold Layout.write
  split
  · intro c hc
    simp only [List.mem_cons, List.not_mem_nil, or_false] at hc
    rcases hc with rfl | rfl | rfl
    · exact isWordChar_of_isDigit (by decide)
    · exact ⟨by decide, by decide, by decide⟩
    · exact isWordChar_of_isDigit (by decide)
  split
  · exact isWordChar_of_mem_positional hdigits
  · exact isWordChar_of_mem_scientific hdigits

theorem isWordChar_of_mem_writeInt (n : Int) : ∀ c ∈ Number.writeInt n, IsWordChar c := by
  intro c hc
  simp only [Number.writeInt, List.mem_append] at hc
  rcases hc with hc | hc
  · split at hc
    · obtain rfl : c = '-' := by simpa using hc
      exact isWordChar_minus
    · cases hc
  · exact isWordChar_of_isDigit (isDigit_of_mem_toDigits c hc)

theorem isWordChar_of_mem_number (n : Number) : ∀ c ∈ n.write, IsWordChar c := by
  intro c hc
  cases n with
  | int n => exact isWordChar_of_mem_writeInt n c hc
  | float x =>
    simp only [Number.write, Layout.writeBinary, List.mem_append] at hc
    rcases hc with hc | hc
    · split at hc
      · obtain rfl : c = '-' := by simpa using hc
        exact isWordChar_minus
      · cases hc
    · exact isWordChar_of_mem_layout _ _ c hc

/-- A written number is none of the texts that no number has. -/
theorem number_write_ne {n : Number} {text : List Char} (h : numberOfWord? text = none) :
    n.write ≠ text := by
  rintro rfl
  rw [numberOfWord?_write] at h
  cases h

/-! ### Trees -/

mutual

/-- The tokens of a tree. -/
def asTokens : Json → List Token
  | .null => [.word "null".toList]
  | .bool true => [.word "true".toList]
  | .bool false => [.word "false".toList]
  | .number n => [.word n.write]
  | .string s => [.string (bodyOfString s)]
  | .array items => .beginArray :: (itemTokens items ++ [.endArray])
  | .object members => .beginObject :: (memberTokens members ++ [.endObject])

/-- The tokens of the elements, with commas between them. -/
def itemTokens : List Json → List Token
  | [] => []
  | [item] => asTokens item
  | item :: next :: rest => asTokens item ++ .comma :: itemTokens (next :: rest)

/-- The tokens of the names and members, with commas between them. -/
def memberTokens : List (String × Json) → List Token
  | [] => []
  | [(name, value)] => .string (bodyOfString name) :: .colon :: asTokens value
  | (name, value) :: next :: rest =>
    .string (bodyOfString name) :: .colon ::
      (asTokens value ++ .comma :: memberTokens (next :: rest))

end

/-- A token that no blanks precede. -/
def Token.bare (t : Token) : Lexeme := ⟨[], t⟩

theorem lex_literal_append (name : String) (hne : name.toList ≠ [])
    (hname : ∀ c ∈ name.toList, c.isAlphanum) {rest : List Char} (hrest : Delimits rest) :
    lex (name.toList ++ rest) = (Token.word name.toList).bare :: lex rest :=
  lex_word_append hne (fun c hc => isWordChar_of_isAlphanum (hname c hc)) hrest

mutual

/-- The text of a tree is cut into its tokens, up to where the rest begins. -/
theorem lex_write_append (j : Json) {rest : List Char} (hrest : Delimits rest) :
    lex (write j ++ rest) = (asTokens j).map Token.bare ++ lex rest := by
  cases j with
  | null => exact lex_literal_append "null" (by simp) (by simp) hrest
  | bool b =>
    cases b with
    | true => exact lex_literal_append "true" (by simp) (by simp) hrest
    | false => exact lex_literal_append "false" (by simp) (by simp) hrest
  | number n =>
    exact lex_word_append (number_write_ne (by decide)) (isWordChar_of_mem_number n) hrest
  | string s => exact lex_writeString_append s rest
  | array items =>
    have hitems := lex_writeItems_append items (delimits_mark (c := ']') rest rfl)
    simp only [write, asTokens, List.cons_append, List.append_assoc, List.nil_append,
      List.map_cons, List.map_append, List.map_nil]
    rw [lex_mark (c := '[') _ rfl, hitems, lex_mark (c := ']') _ rfl]
    rfl
  | object members =>
    have hmembers := lex_writeMembers_append members (delimits_mark (c := '\x7d') rest rfl)
    simp only [write, asTokens, List.cons_append, List.append_assoc, List.nil_append,
      List.map_cons, List.map_append, List.map_nil]
    rw [lex_mark (c := '\x7b') _ rfl, hmembers, lex_mark (c := '\x7d') _ rfl]
    rfl

theorem lex_writeItems_append (items : List Json) {rest : List Char} (hrest : Delimits rest) :
    lex (writeItems items ++ rest) = (itemTokens items).map Token.bare ++ lex rest := by
  cases items with
  | nil => rfl
  | cons item more =>
    cases more with
    | nil => exact lex_write_append item hrest
    | cons next more =>
      have hmore := lex_writeItems_append (next :: more) hrest
      simp only [writeItems, itemTokens, List.append_assoc, List.cons_append, List.map_append,
        List.map_cons]
      rw [lex_write_append item (delimits_mark (c := ',') _ rfl), lex_mark (c := ',') _ rfl,
        hmore]
      rfl

theorem lex_writeMembers_append (members : List (String × Json)) {rest : List Char}
    (hrest : Delimits rest) :
    lex (writeMembers members ++ rest) = (memberTokens members).map Token.bare ++ lex rest := by
  cases members with
  | nil => rfl
  | cons member more =>
    obtain ⟨name, value⟩ := member
    cases more with
    | nil =>
      simp only [writeMembers, memberTokens, List.append_assoc, List.cons_append, List.map_cons]
      rw [lex_writeString_append, lex_mark (c := ':') _ rfl, lex_write_append value hrest]
      rfl
    | cons next more =>
      have hmore := lex_writeMembers_append (next :: more) hrest
      simp only [writeMembers, memberTokens, List.append_assoc, List.cons_append,
        List.map_append, List.map_cons]
      rw [lex_writeString_append, lex_mark (c := ':') _ rfl,
        lex_write_append value (delimits_mark (c := ',') _ rfl), lex_mark (c := ',') _ rfl, hmore]
      rfl

end

/-- The tokens of a written tree are those that the tree says. -/
theorem tokens_write (j : Json) : tokens (write j) = asTokens j := by
  have h := lex_write_append j delimits_nil
  rw [List.append_nil] at h
  have hbare : (Lexeme.token ∘ Token.bare) = id := rfl
  rw [tokens, h, List.map_append, List.map_map, hbare]
  simp [lex, lexFrom]

end TypedStore.Json
