/-
  TypedStore/Key.lean
  ===================
  **Keys.**

  A key consists of ASCII letters, digits, underscores and hyphens and is no longer than a bound.
  The characters are looked at first: a long key with a space in it is reported for the space.
  Every character before the first wrong one takes one byte, so the place of that character is the
  same whether it is counted in characters or in bytes.
-/
import TypedStore.Bytes.Utf8
import TypedStore.Limits
import TypedStore.Text.Quoted

namespace TypedStore

def isKeyChar (c : Char) : Bool := c.isAlphanum || c = '_' || c = '-'

inductive KeyFault where
  /-- The first character that may not stand in a key, and the byte at which it begins. -/
  | invalidCharacter (c : Char) (index : Nat)
  | tooLong (actual max : Nat)
deriving DecidableEq, Repr

namespace KeyFault

def message : KeyFault → String
  | .invalidCharacter c index =>
    "Key contains invalid character " ++ Text.quote c ++ " at byte " ++ index.repr
  | .tooLong actual max =>
    "Key too long: " ++ actual.repr ++ " bytes exceeds maximum " ++ max.repr

def reason : KeyFault → String
  | .invalidCharacter .. => "invalid_character"
  | .tooLong .. => "key_too_long"

end KeyFault

/-- The first character that may not stand in a key, with its place. -/
def firstInvalid? (index : Nat) : List Char → Option (Char × Nat)
  | [] => none
  | c :: rest => if isKeyChar c then firstInvalid? (index + c.utf8Size) rest else some (c, index)

def checkKey (limits : Limits) (text : String) : Except KeyFault Unit :=
  match firstInvalid? 0 text.toList with
  | some (c, index) => .error (.invalidCharacter c index)
  | none =>
    let length := (Utf8.encode text).length
    if limits.maxKeyBytes < length then .error (.tooLong length limits.maxKeyBytes) else .ok ()

structure Key (limits : Limits) where
  text : String
  isKey : checkKey limits text = .ok ()

namespace Key

variable {limits : Limits}

def ofText (limits : Limits) (text : String) : Except KeyFault (Key limits) :=
  match h : checkKey limits text with
  | .ok () => .ok ⟨text, h⟩
  | .error fault => .error fault

/-- The bytes under which the key's value is kept. -/
def bytes (key : Key limits) : Bytes := Utf8.encode key.text

theorem firstInvalid?_eq_none_iff {index : Nat} {cs : List Char} :
    firstInvalid? index cs = none ↔ ∀ c ∈ cs, isKeyChar c := by
  induction cs generalizing index with
  | nil => simp [firstInvalid?]
  | cons c rest ih => by_cases h : isKeyChar c <;> simp [firstInvalid?, h, ih]

end Key

/-- Whether a text could be a key at all: one that cannot is never stored. -/
def isAdmissible (limits : Limits) (text : String) : Bool := (checkKey limits text).toBool

end TypedStore
