/-
  TypedStore/Json/StringText.lean
  ===============================
  **Strings as JSON writes them.**

  Reading goes in two steps. `pieces?` takes the body of a string apart into characters and, for
  `\u` escapes, units of sixteen bits; it fails on a raw control character and on an escape that
  is none. `joinFrom` then puts the units together: a high surrogate with the low one that
  follows it, any other unit by itself. Half of a pair alone is an error. Text that only has to
  be well formed, and is not read, is checked by the first step alone.

  Writing escapes the quote, the backslash and the control characters, with short escapes where
  there are any, and leaves every other character as it is.
-/

namespace TypedStore.Json

inductive Piece where
  | char (c : Char)
  | unit (n : Nat)
deriving DecidableEq, Repr

def hexDigit? (c : Char) : Option Nat :=
  if '0' ≤ c ∧ c ≤ '9' then some (c.toNat - '0'.toNat)
  else if 'a' ≤ c ∧ c ≤ 'f' then some (c.toNat - 'a'.toNat + 10)
  else if 'A' ≤ c ∧ c ≤ 'F' then some (c.toNat - 'A'.toNat + 10)
  else none

def hexNumber? (digits : List Char) : Option Nat :=
  digits.foldlM (fun n c => (hexDigit? c).map (16 * n + ·)) 0

def shortEscape? (c : Char) : Option Char :=
  if c = '"' then some '"'
  else if c = '\\' then some '\\'
  else if c = '/' then some '/'
  else if c = 'b' then some '\x08'
  else if c = 'f' then some '\x0c'
  else if c = 'n' then some '\n'
  else if c = 'r' then some '\x0d'
  else if c = 't' then some '\t'
  else none

/-- Whether a character may stand in a string as it is. -/
def isPlain (c : Char) : Bool := 0x20 ≤ c.toNat && c ≠ '"' && c ≠ '\\'

/-- The parts of a string's body, unless it is ill formed. -/
def pieces? : List Char → Option (List Piece)
  | [] => some []
  | '\\' :: 'u' :: a :: b :: c :: d :: rest => do
    let n ← hexNumber? [a, b, c, d]
    return .unit n :: (← pieces? rest)
  | '\\' :: e :: rest => do
    let c ← shortEscape? e
    return .char c :: (← pieces? rest)
  | c :: rest => if isPlain c then (pieces? rest).map (.char c :: ·) else none

def isHighSurrogate (n : Nat) : Bool := 0xD800 ≤ n && n ≤ 0xDBFF

def isLowSurrogate (n : Nat) : Bool := 0xDC00 ≤ n && n ≤ 0xDFFF

def ofSurrogates (high low : Nat) : Char :=
  Char.ofNat (0x10000 + (high - 0xD800) * 0x400 + (low - 0xDC00))

/-- The characters of the parts, after a high surrogate that waits for its other half. -/
def joinFrom : Option Nat → List Piece → Option (List Char)
  | none, [] => some []
  | some _, [] => none
  | none, .char c :: rest => (joinFrom none rest).map (c :: ·)
  | some _, .char _ :: _ => none
  | none, .unit n :: rest =>
    if isHighSurrogate n then joinFrom (some n) rest
    else if isLowSurrogate n then none
    else (joinFrom none rest).map (Char.ofNat n :: ·)
  | some high, .unit n :: rest =>
    if isLowSurrogate n then (joinFrom none rest).map (ofSurrogates high n :: ·) else none

def stringOfBody? (body : List Char) : Option String :=
  ((pieces? body).bind (joinFrom none)).map String.ofList

def escapeChar (c : Char) : List Char :=
  if c = '"' then ['\\', '"']
  else if c = '\\' then ['\\', '\\']
  else if c = '\x08' then ['\\', 'b']
  else if c = '\x0c' then ['\\', 'f']
  else if c = '\n' then ['\\', 'n']
  else if c = '\x0d' then ['\\', 'r']
  else if c = '\t' then ['\\', 't']
  else if c.toNat < 0x20 then
    ['\\', 'u', '0', '0', Nat.digitChar (c.toNat / 16), Nat.digitChar (c.toNat % 16)]
  else [c]

def bodyOfString (s : String) : List Char := s.toList.flatMap escapeChar

def writeString (s : String) : List Char := '"' :: bodyOfString s ++ ['"']

/-! ### Writing, then reading -/

theorem pieces?_plain {c : Char} (h : isPlain c) (rest : List Char) :
    pieces? (c :: rest) = (pieces? rest).map (.char c :: ·) := by
  have hc : c ≠ '\\' := by simp [isPlain] at h; exact h.2
  conv => lhs; unfold pieces?
  split <;> simp_all

theorem hexNumber?_control : ∀ n < 32,
    hexNumber? ['0', '0', Nat.digitChar (n / 16), Nat.digitChar (n % 16)] = some n := by
  decide +kernel

/-- A written character is read as itself. -/
theorem pieces?_escapeChar (c : Char) (rest : List Char) :
    ∃ p, pieces? (escapeChar c ++ rest) = (pieces? rest).map (p :: ·) ∧
      ∀ ps, joinFrom none (p :: ps) = (joinFrom none ps).map (c :: ·) := by
  by_cases hshort : c = '"' ∨ c = '\\' ∨ c = '\x08' ∨ c = '\x0c' ∨ c = '\n' ∨ c = '\x0d' ∨
      c = '\t'
  · refine ⟨.char c, ?_, fun ps => by simp [joinFrom]⟩
    rcases hshort with rfl | rfl | rfl | rfl | rfl | rfl | rfl <;>
      simp [escapeChar, pieces?, shortEscape?] <;> cases pieces? rest <;> rfl
  · simp only [not_or] at hshort
    obtain ⟨h1, h2, h3, h4, h5, h6, h7⟩ := hshort
    by_cases hlt : c.toNat < 0x20
    · refine ⟨.unit c.toNat, ?_, fun ps => ?_⟩
      · simp only [escapeChar, h1, h2, h3, h4, h5, h6, h7, hlt, ↓reduceIte, List.cons_append,
          List.nil_append, pieces?, hexNumber?_control _ hlt]
        cases pieces? rest <;> rfl
      · have hhigh : isHighSurrogate c.toNat = false := by simp [isHighSurrogate]; omega
        have hlow : isLowSurrogate c.toNat = false := by simp [isLowSurrogate]; omega
        simp [joinFrom, hhigh, hlow, Char.ofNat_toNat]
    · refine ⟨.char c, ?_, fun ps => by simp [joinFrom]⟩
      have hplain : isPlain c := by simp [isPlain, h1, h2]; omega
      rw [← pieces?_plain hplain]
      simp [escapeChar, h1, h2, h3, h4, h5, h6, h7, hlt]

/-- Reading undoes writing. -/
theorem stringOfBody?_bodyOfString (s : String) : stringOfBody? (bodyOfString s) = some s := by
  have key : ∀ cs : List Char,
      ∃ ps, pieces? (cs.flatMap escapeChar) = some ps ∧ joinFrom none ps = some cs := by
    intro cs
    induction cs with
    | nil => exact ⟨[], rfl, rfl⟩
    | cons c cs ih =>
      obtain ⟨ps, hps, hj⟩ := ih
      obtain ⟨p, hp, hjp⟩ := pieces?_escapeChar c (cs.flatMap escapeChar)
      exact ⟨p :: ps, by rw [List.flatMap_cons, hp, hps]; rfl, by rw [hjp, hj]; rfl⟩
  obtain ⟨ps, hps, hj⟩ := key s.toList
  simp [stringOfBody?, bodyOfString, hps, hj]

example : stringOfBody? "a\\ud83d\\ude00\\/".toList = some "a😀/" := by decide +kernel
example : stringOfBody? "\\ud83d".toList = none ∧ (pieces? "\\ud83d".toList).isSome := by
  decide +kernel
example : bodyOfString "\"\x01é" = "\\\"\\u0001é".toList := by decide +kernel

end TypedStore.Json
