/-
  TypedStore/Toml/Quoted.lean
  ===========================
  **The four kinds of TOML string.**

  A string stands between single or triple quotes of either sort. Inside double quotes a backslash
  begins an escape; inside apostrophes nothing is special. Triple quotes may hold line breaks, and
  one or two quotes of their own, also right before they close; in triple double quotes a backslash
  at the end of a line takes the break and the blanks after it away.

  Each kind is a machine that reads one character at a time (`Quotes.step`), may give out
  characters of the string as it goes, and says when the string has ended (`Quotes.ends?`).
-/
import TypedStore.Json.StringText

namespace TypedStore.Toml

inductive Quotes where
  | basic
  | literal
  | multilineBasic
  | multilineLiteral
deriving DecidableEq, Repr

namespace Quotes

def mark : Quotes → Char
  | .basic | .multilineBasic => '"'
  | .literal | .multilineLiteral => '\''

def isMultiline : Quotes → Bool
  | .multilineBasic | .multilineLiteral => true
  | _ => false

def hasEscapes (kind : Quotes) : Bool := kind.mark = '"'

end Quotes

/-- Whether a character may stand in a comment: any but the controls other than tab. -/
def isTextChar (c : Char) : Bool := c = '\t' || (0x20 ≤ c.toNat && c.toNat ≠ 0x7F)

inductive QuoteState where
  | plain
  /-- After the quote that closes a string on one line. -/
  | closed
  /-- After so many quotes in a string on several lines. -/
  | quotes (n : Nat)
  /-- After a carriage return. -/
  | carriageReturn
  /-- After a backslash. -/
  | escape
  /-- Inside an escape by number: how many digits are missing, and the number so far. -/
  | digits (missing : Nat) (code : Nat)
  /-- Inside the blanks that a backslash takes away; whether they have had a line break. -/
  | folding (broken : Bool)
  /-- After a carriage return in such blanks. -/
  | foldingReturn
deriving DecidableEq, Repr

def shortEscape? (c : Char) : Option Char :=
  if c = 'b' then some '\x08'
  else if c = 't' then some '\t'
  else if c = 'n' then some '\n'
  else if c = 'f' then some '\x0c'
  else if c = 'r' then some '\x0d'
  else if c = '"' then some '"'
  else if c = '\\' then some '\\'
  else none

/-- The character of that number, if there is one. -/
def charOfCode? (n : Nat) : Option Char :=
  if h : n.isValidChar then some (Char.ofNatAux n h) else none

namespace Quotes

/-- What an ordinary character of the string gives out, and the state after it. -/
def plainStep (kind : Quotes) (c : Char) : Option (List Char × QuoteState) :=
  if c = kind.mark then some ([], if kind.isMultiline then .quotes 1 else .closed)
  else if c = '\\' ∧ kind.hasEscapes then some ([], .escape)
  else if c = '\n' ∧ kind.isMultiline then some (['\n'], .plain)
  else if c = '\x0d' ∧ kind.isMultiline then some ([], .carriageReturn)
  else if isTextChar c then some ([c], .plain)
  else none

/-- What a character gives out, and the state after it. -/
def step (kind : Quotes) (state : QuoteState) (c : Char) : Option (List Char × QuoteState) :=
  match state with
  | .plain => kind.plainStep c
  | .closed => none
  | .quotes n =>
    if c = kind.mark then some ([], .quotes (n + 1))
    else (kind.plainStep c).map fun (out, next) => (List.replicate n kind.mark ++ out, next)
  | .carriageReturn => if c = '\n' then some (['\n'], .plain) else none
  | .escape =>
    if c = 'u' then some ([], .digits 4 0)
    else if c = 'U' then some ([], .digits 8 0)
    else
      match shortEscape? c with
      | some e => some ([e], .plain)
      | none =>
        if !kind.isMultiline then none
        else if c = ' ' ∨ c = '\t' then some ([], .folding false)
        else if c = '\n' then some ([], .folding true)
        else if c = '\x0d' then some ([], .foldingReturn)
        else none
  | .digits missing code => do
    let code := 16 * code + (← Json.hexDigit? c)
    if missing ≤ 1 then
      let e ← charOfCode? code
      return ([e], .plain)
    else return ([], .digits (missing - 1) code)
  | .folding broken =>
    if c = ' ' ∨ c = '\t' then some ([], .folding broken)
    else if c = '\n' then some ([], .folding true)
    else if c = '\x0d' then some ([], .foldingReturn)
    else if broken then kind.plainStep c
    else none
  | .foldingReturn => if c = '\n' then some ([], .folding true) else none

/-- The quotes that are the last characters of the string, if it has ended where the input goes on
    with `next`. -/
def ends? (kind : Quotes) (state : QuoteState) (next : Option Char) : Option (List Char) :=
  match state with
  | .closed => some []
  | .quotes n =>
    if 5 ≤ n ∨ (3 ≤ n ∧ next ≠ some kind.mark) then some (List.replicate (n - 3) kind.mark)
    else none
  | _ => none

def readFrom (kind : Quotes) : QuoteState → List Char → Option (List Char × List Char)
  | state, [] => (kind.ends? state none).map (·, [])
  | state, c :: rest =>
    match kind.ends? state (some c) with
    | some last => some (last, c :: rest)
    | none => do
      let (out, next) ← kind.step state c
      let (more, rest) ← readFrom kind next rest
      return (out ++ more, rest)

end Quotes

def dropNewline : List Char → List Char
  | '\n' :: rest => rest
  | '\x0d' :: '\n' :: rest => rest
  | rest => rest

/-- The string that the text begins with, if it begins with a quote; on one line only, unless
    triple quotes are allowed. -/
def readString? (multiline : Bool) : List Char → Option (String × List Char)
  | '"' :: '"' :: '"' :: rest =>
    if multiline then
      (Quotes.readFrom .multilineBasic .plain (dropNewline rest)).map fun r =>
        (String.ofList r.1, r.2)
    else some ("", '"' :: rest)
  | '\'' :: '\'' :: '\'' :: rest =>
    if multiline then
      (Quotes.readFrom .multilineLiteral .plain (dropNewline rest)).map fun r =>
        (String.ofList r.1, r.2)
    else some ("", '\'' :: rest)
  | '"' :: rest => (Quotes.readFrom .basic .plain rest).map fun r => (String.ofList r.1, r.2)
  | '\'' :: rest => (Quotes.readFrom .literal .plain rest).map fun r => (String.ofList r.1, r.2)
  | _ => none

example : readString? true "\"\"\"\na \\\n  b\"\"\"\"x".toList = some ("a b\"", ['x']) := by
  decide +kernel
example : readString? true "'a\\'".toList = some ("a\\", []) := by decide +kernel
example : readString? true "\"\\ud800\"".toList = none := by decide +kernel

end TypedStore.Toml
