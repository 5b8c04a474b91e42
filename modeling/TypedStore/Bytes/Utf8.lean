/-
  TypedStore/Bytes/Utf8.lean
  ==========================
  **Text as bytes.**

  Keys, values and files are byte lists; what is meant by them is text. `encode` writes text as
  UTF-8 and `decode` reads it back, or says where the bytes stop being UTF-8 and why: an
  ill-formed sequence of one to three bytes, or a character cut off by the end of the input.

  The reader takes one byte at a time. Between characters a leading byte says how many
  continuation bytes are owed and which range the first of them must lie in; that range is what
  excludes overlong forms, surrogates and code points above U+10FFFF.
-/

namespace TypedStore

abbrev Bytes := List UInt8

namespace Utf8

/-- Why bytes are not UTF-8, and where the part that is ends. -/
inductive Fault where
  /-- `length` bytes from `index` can begin no character. -/
  | invalid (length index : Nat)
  /-- The input ends inside the character that begins at `index`. -/
  | incomplete (index : Nat)
deriving DecidableEq, Repr

/-- The description of a fault, as error messages quote it. -/
def Fault.message : Fault → String
  | .invalid length index =>
    "invalid utf-8 sequence of " ++ length.repr ++ " bytes from index " ++ index.repr
  | .incomplete index => "incomplete utf-8 byte sequence from index " ++ index.repr

/-- A character of which some bytes have been read. -/
structure Pending where
  /-- Where its leading byte stands. -/
  start : Nat
  /-- How many of its bytes have been read. -/
  seen : Nat
  /-- How many continuation bytes follow the next one. -/
  more : Nat
  /-- The least byte that may come next. -/
  low : UInt8
  /-- The greatest byte that may come next. -/
  high : UInt8
  /-- The code point's bits so far. -/
  code : Nat
deriving DecidableEq, Repr

/-- What the leading byte `b` of a longer character at `index` announces. -/
def Pending.ofLead (index : Nat) (b : UInt8) : Option Pending :=
  if 0xC2 ≤ b ∧ b ≤ 0xDF then some ⟨index, 1, 0, 0x80, 0xBF, b.toNat - 0xC0⟩
  else if b = 0xE0 then some ⟨index, 1, 1, 0xA0, 0xBF, 0⟩
  else if b = 0xED then some ⟨index, 1, 1, 0x80, 0x9F, 0xD⟩
  else if 0xE1 ≤ b ∧ b ≤ 0xEF then some ⟨index, 1, 1, 0x80, 0xBF, b.toNat - 0xE0⟩
  else if b = 0xF0 then some ⟨index, 1, 2, 0x90, 0xBF, 0⟩
  else if 0xF1 ≤ b ∧ b ≤ 0xF3 then some ⟨index, 1, 2, 0x80, 0xBF, b.toNat - 0xF0⟩
  else if b = 0xF4 then some ⟨index, 1, 2, 0x80, 0x8F, 4⟩
  else none

/-- The code point's bits after a continuation byte. -/
def Pending.extend (p : Pending) (b : UInt8) : Nat := p.code * 64 + (b.toNat - 0x80)

/-- The characters of the longest well-formed part from `index` on, and what ends it early. -/
def scan (index : Nat) : Option Pending → Bytes → List Char × Option Fault
  | none, [] => ([], none)
  | some p, [] => ([], some (.incomplete p.start))
  | none, b :: rest =>
    if b < 0x80 then
      let (cs, fault) := scan (index + 1) none rest
      (Char.ofNat b.toNat :: cs, fault)
    else
      match Pending.ofLead index b with
      | none => ([], some (.invalid 1 index))
      | some p => scan (index + 1) (some p) rest
  | some p, b :: rest =>
    if p.low ≤ b ∧ b ≤ p.high then
      match p.more with
      | 0 =>
        let (cs, fault) := scan (index + 1) none rest
        (Char.ofNat (p.extend b) :: cs, fault)
      | more + 1 =>
        scan (index + 1) (some ⟨p.start, p.seen + 1, more, 0x80, 0xBF, p.extend b⟩) rest
    else ([], some (.invalid p.seen p.start))

/-- The characters up to the first fault, with that fault. -/
def split (bytes : Bytes) : List Char × Option Fault := scan 0 none bytes

/-- The text that the bytes write, or the first fault in them. -/
def decode (bytes : Bytes) : Except Fault String :=
  match split bytes with
  | (cs, none) => .ok (String.ofList cs)
  | (_, some fault) => .error fault

def encodeChars (cs : List Char) : Bytes := cs.flatMap String.utf8EncodeChar

def encode (s : String) : Bytes := encodeChars s.toList

theorem encodeChars_append (a b : List Char) :
    encodeChars (a ++ b) = encodeChars a ++ encodeChars b := List.flatMap_append

example : split [0x61, 0xC3, 0xA9, 0xF0, 0x9F, 0x98, 0x80] = (['a', 'é', '😀'], none) := by
  decide +kernel
example : split [0x61, 0xED, 0xA0, 0x80] = (['a'], some (.invalid 1 1)) := by decide +kernel
example : split [0xF0, 0x9F, 0x98] = ([], some (.incomplete 0)) := by decide +kernel
example : split [0xF0, 0x9F, 0x28] = ([], some (.invalid 2 0)) := by decide +kernel

end Utf8

end TypedStore
