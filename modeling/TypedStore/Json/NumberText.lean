/-
  TypedStore/Json/NumberText.lean
  ===============================
  **Numbers as JSON writes them.**

  `NumberText.ofChars?` accepts exactly the number grammar: an optional minus, digits without a
  needless leading zero, an optional point with digits, an optional exponent with digits.
  `Number.ofText?` gives the parts their meaning. Without point and exponent a number within
  sixty-four bits is an integer, except that `-0` is the float that has that sign; every other
  number is the nearest float, and there is none for a number beyond the finite ones. A text of
  very many digits is read as a number slightly above what its first digits say.

  `Number.write` gives each number one text: integers in decimal, floats so that they are read
  as floats again.
-/
import TypedStore.Json.Basic
import TypedStore.Number.Layout

namespace TypedStore.Json

structure NumberText where
  negative : Bool
  /-- The digits before the point. -/
  whole : List Char
  /-- The digits after the point; empty if there is no point. -/
  fraction : List Char
  /-- The exponent, if one is written. -/
  exponent : Option Int
deriving DecidableEq, Repr

namespace NumberText

def splitSign : List Char → Bool × List Char
  | '-' :: rest => (true, rest)
  | rest => (false, rest)

/-- Take the point and the digits after it off, if the text goes on with a point. -/
def splitFraction? : List Char → Option (List Char × List Char)
  | '.' :: rest =>
    let digits := rest.takeWhile Char.isDigit
    if digits = [] then none else some (digits, rest.dropWhile Char.isDigit)
  | rest => some ([], rest)

/-- The number that digits write, if there is one at least and nothing else. -/
def natOfDigits? (digits : List Char) : Option Nat :=
  if digits ≠ [] ∧ digits.all Char.isDigit then some (Nat.ofDigitChars 10 digits 0) else none

def signedOfDigits? : List Char → Option Int
  | '-' :: digits => (natOfDigits? digits).map fun n => -(n : Int)
  | '+' :: digits => (natOfDigits? digits).map Int.ofNat
  | digits => (natOfDigits? digits).map Int.ofNat

/-- The exponent that is the rest of the text; there may be none. -/
def exponentOfChars? : List Char → Option (Option Int)
  | [] => some none
  | c :: rest => if c = 'e' ∨ c = 'E' then (signedOfDigits? rest).map some else none

def ofChars? (text : List Char) : Option NumberText :=
  let (negative, rest) := splitSign text
  let whole := rest.takeWhile Char.isDigit
  if whole = [] ∨ (whole.head? = some '0' ∧ whole.length ≠ 1) then none
  else do
    let (fraction, rest) ← splitFraction? (rest.dropWhile Char.isDigit)
    let exponent ← exponentOfChars? rest
    return ⟨negative, whole, fraction, exponent⟩

/-- How many digits of a number are read for what they are. A decimal in the middle between two
    floats never needs more. -/
def exactDigits : Nat := 768

/-- The number without its sign. Zeros in front of its digits do not count and neither do zeros at
    the end of the fraction. If there are more than `exactDigits` digits, the further ones only
    say that the number goes on, also if they are zeros before the point: a single one stands for
    them all. -/
def decimal (t : NumberText) : Decimal :=
  let fraction := Decimal.dropTrailingZeros t.fraction
  let digits := (t.whole ++ fraction).dropWhile (· = '0')
  let exponent := t.exponent.getD 0 - fraction.length
  if digits.length ≤ exactDigits then Decimal.ofDigits digits exponent
  else
    Decimal.ofDigits (digits.take exactDigits ++ ['1'])
      (exponent + (digits.length - exactDigits - 1 : Nat))

end NumberText

namespace Number

def ofInt? (n : Int) : Option Number :=
  if h : -0x8000000000000000 ≤ n ∧ n < 0x10000000000000000 then some (.int ⟨n, h⟩) else none

def ofFloat? (x : Binary64) : Option Number :=
  if h : x.isFinite then some (.float ⟨x, h⟩) else none

/-- The integer that the text writes, if it is written as one, fits, and is not a negative
    zero. -/
def intOfText? (t : NumberText) : Option Number :=
  if t.fraction = [] ∧ t.exponent = none then
    let n := Nat.ofDigitChars 10 t.whole 0
    if t.negative then (if n = 0 then none else ofInt? (-n)) else ofInt? n
  else none

def ofText? (t : NumberText) : Option Number :=
  (intOfText? t).or (ofFloat? (.ofMagnitude t.negative t.decimal.nearest))

/-- Decimal digits, after a minus if the number is negative. -/
def writeInt (n : Int) : List Char :=
  (if n < 0 then ['-'] else []) ++ Nat.toDigits 10 n.natAbs

def write : Number → List Char
  | .int n => writeInt n
  | .float x => Layout.stored.writeBinary x

end Number

def numberOfWord? (word : List Char) : Option Number :=
  (NumberText.ofChars? word).bind Number.ofText?

example : numberOfWord? "-12".toList = some (.int ⟨-12, by decide⟩) := by decide +kernel
example : numberOfWord? "18446744073709551616".toList =
    some (.float ⟨⟨0x43F0000000000000⟩, by decide⟩) := by decide +kernel
example : numberOfWord? "-0".toList = some (.float ⟨⟨0x8000000000000000⟩, by decide⟩) := by
  decide +kernel
example : numberOfWord? "1e309".toList = none ∧ numberOfWord? "01".toList = none ∧
    numberOfWord? "1.".toList = none ∧ numberOfWord? "+1".toList = none := by decide +kernel

end TypedStore.Json
