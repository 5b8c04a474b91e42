/-
  TypedStore/Bytes/Checksum.lean
  ==============================
  **The CRC-32 of a file, and its four bytes on disk.**

  The checksum is the common CRC-32: polynomial 0x04C11DB7 with bits reflected, start value and
  final complement all ones. A checksum file holds it as four bytes, the most significant first.
-/
import TypedStore.Bytes.Utf8

namespace TypedStore.Checksum

/-- One bit of the division: shift out the low bit and subtract the polynomial if it was set. -/
def shiftBit (c : UInt32) : UInt32 :=
  if c &&& 1 = 1 then (c >>> 1) ^^^ 0xEDB88320 else c >>> 1

def shiftByte (c : UInt32) (b : UInt8) : UInt32 :=
  Nat.repeat shiftBit 8 (c ^^^ b.toUInt32)

def crc32 (bytes : Bytes) : UInt32 := bytes.foldl shiftByte 0xFFFFFFFF ^^^ 0xFFFFFFFF

/-- The four bytes of a word, most significant first. -/
def bigEndian (w : UInt32) : Bytes :=
  [UInt8.ofNat (w.toNat / 0x1000000), UInt8.ofNat (w.toNat / 0x10000),
    UInt8.ofNat (w.toNat / 0x100), UInt8.ofNat w.toNat]

/-- The word that four bytes write; any other number of bytes writes none. -/
def ofBigEndian? : Bytes → Option UInt32
  | [a, b, c, d] =>
    some (UInt32.ofNat (a.toNat * 0x1000000 + b.toNat * 0x10000 + c.toNat * 0x100 + d.toNat))
  | _ => none

/-- The contents of the checksum file that goes with a data file. -/
def fileFor (data : Bytes) : Bytes := bigEndian (crc32 data)

/-- A word as eight lower-case hexadecimal digits. -/
def hex (w : UInt32) : String :=
  let digits := Nat.toDigits 16 w.toNat
  String.ofList (List.replicate (8 - digits.length) '0' ++ digits)

theorem ofBigEndian?_bigEndian (w : UInt32) : ofBigEndian? (bigEndian w) = some w := by
  have hw := w.toNat_lt
  simp only [ofBigEndian?, bigEndian, Option.some.injEq]
  apply UInt32.toNat_inj.1
  simp only [UInt8.toNat_ofNat', UInt32.toNat_ofNat']
  omega

/-- The bytes of a word determine it. -/
theorem bigEndian_inj {v w : UInt32} (h : bigEndian v = bigEndian w) : v = w := by
  have := congrArg ofBigEndian? h
  simpa [ofBigEndian?_bigEndian] using this

example : crc32 (Utf8.encode "123456789") = 0xCBF43926 := by decide +kernel
example : hex 0xABC = "00000abc" := by decide +kernel

end TypedStore.Checksum
