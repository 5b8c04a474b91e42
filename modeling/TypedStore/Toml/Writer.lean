/-
  TypedStore/Toml/Writer.lean
  ===========================
  **Key-value lines of TOML.**

  A string is written on one line between double quotes, if that takes no escape other than that
  of a tab; else between apostrophes, if it can be; else with triple quotes; and only if all of
  these fail with escapes. An integer is written in decimal and has to fit sixty-four bits with a
  sign.
-/
import TypedStore.Toml.Quoted

namespace TypedStore.Toml

def longestRun (c : Char) (text : List Char) : Nat :=
  (text.foldl (fun (best, run) d =>
    if d = c then (max best (run + 1), run + 1) else (best, 0)) (0, 0)).1

/-- A control character that only an escape can write: any but tab and line feed. -/
def needsEscape (c : Char) : Bool := (c.toNat < 0x20 && c ≠ '\t' && c ≠ '\n') || c.toNat = 0x7F

/-- A character between double quotes, other than the quote itself; line feeds as they are if
    the string may have several lines. -/
def escapeChar (multiline : Bool) (c : Char) : List Char :=
  if c = '\x08' then ['\\', 'b']
  else if c = '\t' then ['\\', 't']
  else if c = '\n' then if multiline then ['\n'] else ['\\', 'n']
  else if c = '\x0c' then ['\\', 'f']
  else if c = '\x0d' then ['\\', 'r']
  else if c = '\\' then ['\\', '\\']
  else if c.toNat < 0x20 ∨ c.toNat = 0x7F then
    let digits := (Nat.toDigits 16 c.toNat).map Char.toUpper
    '\\' :: 'u' :: List.replicate (4 - digits.length) '0' ++ digits
  else [c]

/-- A text between double quotes, of which `run` stand right before it. Two quotes side by side
    are no end of a string of several lines, so they need no escape there. -/
def escapeFrom (multiline : Bool) (run : Nat) : List Char → List Char
  | [] => []
  | c :: rest =>
    if c = '"' then
      if multiline ∧ run < 2 then '"' :: escapeFrom multiline (run + 1) rest
      else '\\' :: '"' :: escapeFrom multiline 0 rest
    else escapeChar multiline c ++ escapeFrom multiline 0 rest

def chooseQuotes (text : List Char) : Quotes :=
  let escapes := text.any needsEscape
  let backslash := text.contains '\\'
  let lines := text.contains '\n'
  let doubles := longestRun '"' text
  let singles := longestRun '\'' text
  if !escapes && !backslash && doubles = 0 && !lines then .basic
  else if !escapes && singles = 0 && !lines then .literal
  else if !escapes && !backslash && doubles ≤ 2 then .multilineBasic
  else if !escapes && singles ≤ 2 then .multilineLiteral
  else if lines then .multilineBasic
  else .basic

def writeString (s : String) : List Char :=
  let text := s.toList
  let kind := chooseQuotes text
  let body := if kind.hasEscapes then escapeFrom kind.isMultiline 0 text else text
  let quotes := List.replicate (if kind.isMultiline then 3 else 1) kind.mark
  let opening := if kind.isMultiline ∧ text.contains '\n' then quotes ++ ['\n'] else quotes
  opening ++ body ++ quotes

def stringLine (key value : String) : List Char :=
  key.toList ++ " = ".toList ++ writeString value ++ ['\n']

/-- A line that gives a key a number, if TOML has it. -/
def integerLine? (key : String) (value : Nat) : Option (List Char) :=
  if value < 0x8000000000000000 then
    some (key.toList ++ " = ".toList ++ Nat.toDigits 10 value ++ ['\n'])
  else none

example : writeString "it's" = "\"it's\"".toList ∧ writeString "a\"b" = "'a\"b'".toList ∧
    writeString "a\tb" = "\"a\\tb\"".toList := by decide +kernel

end TypedStore.Toml
