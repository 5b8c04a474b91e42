/-
  TypedStore/Toml/Scalar.lean
  ===========================
  **TOML values that are written without quotes and brackets.**

  Truth values, integers in four bases, floats, dates and times. Underscores may stand between
  digits. Integers are those of sixty-four bits with a sign; a positive float must not round to
  infinity. What a float or a date means is of no interest to a settings file, so only their kind
  is kept.
-/
import TypedStore.Json.NumberText
import TypedStore.Json.StringText

namespace TypedStore.Toml

inductive Scalar where
  | boolean (b : Bool)
  | integer (n : Int)
  | float
  | datetime
deriving DecidableEq, Repr

/-! ### Digits -/

/-- The digits of a group without its underscores, which must have a digit on either side. -/
def ungroup? (isDigit : Char → Bool) : List Char → Option (List Char)
  | [] => none
  | [c] => if isDigit c then some [c] else none
  | c :: '_' :: rest => if isDigit c then (ungroup? isDigit rest).map (c :: ·) else none
  | c :: rest => if isDigit c then (ungroup? isDigit rest).map (c :: ·) else none

/-- The digits of a decimal number, which begins with zero only if that is all of it. -/
def decimalDigits? (text : List Char) : Option (List Char) :=
  match ungroup? Char.isDigit text with
  | some ('0' :: _ :: _) => none
  | digits => digits

def splitSign : List Char → Bool × List Char
  | '-' :: rest => (true, rest)
  | '+' :: rest => (false, rest)
  | rest => (false, rest)

/-! ### Integers -/

/-- The number that the digits of a group write to a base. -/
def numberToBase? (base : Nat) (text : List Char) : Option Nat := do
  let digits ← ungroup? (fun c => (Json.hexDigit? c).any (· < base)) text
  return digits.foldl (fun n c => base * n + (Json.hexDigit? c).getD 0) 0

def integerOf? (n : Int) : Option Scalar :=
  if -0x8000000000000000 ≤ n ∧ n < 0x8000000000000000 then some (.integer n) else none

/-- An integer: after `0x`, `0o` or `0b` to that base, else decimal with an optional sign. -/
def integer? : List Char → Option Scalar
  | '0' :: 'x' :: rest => (numberToBase? 16 rest).bind fun n => integerOf? n
  | '0' :: 'o' :: rest => (numberToBase? 8 rest).bind fun n => integerOf? n
  | '0' :: 'b' :: rest => (numberToBase? 2 rest).bind fun n => integerOf? n
  | text =>
    let (negative, rest) := splitSign text
    (decimalDigits? rest).bind fun digits =>
      let n : Int := Nat.ofDigitChars 10 digits 0
      integerOf? (if negative then -n else n)

/-! ### Floats -/

/-- The digits after a point, where the text has one. -/
def fraction? : List Char → Option (List Char)
  | [] => some []
  | '.' :: rest => ungroup? Char.isDigit rest
  | _ => none

/-- The exponent after its mark, where the text has one. -/
def exponent? : List Char → Option Int
  | [] => some 0
  | _ :: rest =>
    let (negative, rest) := splitSign rest
    (ungroup? Char.isDigit rest).map fun digits =>
      let n : Int := Nat.ofDigitChars 10 digits 0
      if negative then -n else n

/-- A float: infinity, no number, or a number with a fraction or an exponent that is below
    infinity unless it is negative. -/
def float? (text : List Char) : Option Scalar :=
  let (negative, rest) := splitSign text
  if rest = "inf".toList ∨ rest = "nan".toList then some .float
  else
    let mantissa := rest.takeWhile fun c => c ≠ 'e' && c ≠ 'E'
    let tail := rest.dropWhile fun c => c ≠ 'e' && c ≠ 'E'
    let whole := mantissa.takeWhile (· ≠ '.')
    let point := mantissa.dropWhile (· ≠ '.')
    if tail = [] ∧ point = [] then none
    else do
      let digits ← decimalDigits? whole
      let fraction ← fraction? point
      let exponent ← exponent? tail
      let decimal := Decimal.ofDigits (digits ++ fraction) (exponent - fraction.length)
      if ¬negative ∧ decimal.nearest = Binary64.infinityBits then none else some .float

/-! ### Dates and times -/

def fixedNumber? (count : Nat) (digits : List Char) : Option Nat :=
  if digits.length = count ∧ digits.all Char.isDigit then some (Nat.ofDigitChars 10 digits 0)
  else none

def daysOfMonth (year month : Nat) : Nat :=
  if month = 2 then
    if year % 4 = 0 ∧ (year % 100 ≠ 0 ∨ year % 400 = 0) then 29 else 28
  else if month ∈ [4, 6, 9, 11] then 30
  else 31

def isDate (text : List Char) : Bool :=
  match text with
  | [a, b, c, d, '-', e, f, '-', g, h] =>
    match fixedNumber? 4 [a, b, c, d], fixedNumber? 2 [e, f], fixedNumber? 2 [g, h] with
    | some year, some month, some day =>
      1 ≤ month && month ≤ 12 && 1 ≤ day && day ≤ daysOfMonth year month
    | _, _, _ => false
  | _ => false

/-- Whether the digits are a number of two digits up to a bound. -/
def isUpTo (bound : Nat) (digits : List Char) : Bool :=
  (fixedNumber? 2 digits).any (· ≤ bound)

/-- What follows a time of day at the front of the text. -/
def dropTime? : List Char → Option (List Char)
  | a :: b :: ':' :: c :: d :: ':' :: e :: f :: rest =>
    if isUpTo 23 [a, b] ∧ isUpTo 59 [c, d] ∧ isUpTo 60 [e, f] then
      match rest with
      | '.' :: digits =>
        if digits.takeWhile Char.isDigit = [] then none else some (digits.dropWhile Char.isDigit)
      | rest => some rest
    else none
  | _ => none

/-- Whether the text is a distance from universal time. -/
def isOffset : List Char → Bool
  | ['Z'] | ['z'] => true
  | [sign, a, b, ':', c, d] =>
    (sign = '+' || sign = '-') && isUpTo 23 [a, b] && isUpTo 59 [c, d]
  | _ => false

/-- Whether the text is a time of day, with or without an offset. -/
def isTime (offset : Bool) (text : List Char) : Bool :=
  match dropTime? text with
  | some rest => rest = [] || (offset && isOffset rest)
  | none => false

/-- Whether the text is a date, a time, or a date and a time with a `T` between them. -/
def isDatetime (text : List Char) : Bool :=
  isDate text || isTime false text ||
    (isDate (text.take 10) && (text[10]? = some 'T' || text[10]? = some 't') &&
      isTime true (text.drop 11))

/-! ### Words -/

def Scalar.ofWord? (word : List Char) : Option Scalar :=
  if word = "true".toList then some (.boolean true)
  else if word = "false".toList then some (.boolean false)
  else if isDatetime word then some .datetime
  else (float? word).or (integer? word)

example : Scalar.ofWord? "-1_000".toList = some (.integer (-1000)) ∧
    Scalar.ofWord? "0xff".toList = some (.integer 255) ∧ Scalar.ofWord? "01".toList = none ∧
    Scalar.ofWord? "1__0".toList = none ∧ Scalar.ofWord? "1e5".toList = some .float ∧
    Scalar.ofWord? "1979-02-29".toList = none ∧
    Scalar.ofWord? "1979-05-27T07:32:00-08:00".toList = some .datetime := by decide +kernel

end TypedStore.Toml
