/-
  TypedStore/Toml/Line.lean
  =========================
  **The lines of a TOML document.**

  A document is a sequence of headers and key-value pairs, each ending its line, with comments and
  blank lines between them. Arrays and inline tables hold values in turn; they may be nested, and
  keys be dotted, less than `maxNesting` deep.
-/
import TypedStore.Toml.Item
import TypedStore.Toml.Quoted

namespace TypedStore.Toml

/-- A reader of the front of a text: what it makes of it, and what follows. -/
abbrev Reader (α : Type) := List Char → Option (α × List Char)

/-- The bound on nesting and on the parts of a key. -/
def maxNesting : Nat := 80

/-! ### Blanks and line ends -/

def isBlank (c : Char) : Bool := c = ' ' || c = '\t'

def dropBlanks (text : List Char) : List Char := text.dropWhile isBlank

def dropComment : List Char → List Char
  | '#' :: rest => rest.dropWhile isTextChar
  | rest => rest

/-- What follows the end of a line, if the text is at one. -/
def endLine? : List Char → Option (List Char)
  | [] => some []
  | '\n' :: rest => some rest
  | '\x0d' :: '\n' :: rest => some rest
  | _ => none

/-- What follows the line, if nothing but blanks and a comment is left of it. -/
def finishLine? (text : List Char) : Option (List Char) :=
  endLine? (dropComment (dropBlanks text))

/-- The text without the blanks, comments and line ends at its front. The bound counts lines. -/
def dropLines? : Nat → List Char → Option (List Char)
  | 0, text => some text
  | bound + 1, text =>
    match dropBlanks text with
    | '#' :: rest => (finishLine? ('#' :: rest)).bind (dropLines? bound)
    | '\n' :: rest => dropLines? bound rest
    | '\x0d' :: '\n' :: rest => dropLines? bound rest
    | rest => some rest

/-! ### Keys -/

/-- Whether a character may stand in a key without quotes. -/
def isBareChar (c : Char) : Bool := c.isAlphanum || c = '_' || c = '-'

def readKeyPart : Reader String := fun text =>
  match readString? false text with
  | some r => some r
  | none =>
    let bare := text.takeWhile isBareChar
    if bare = [] then none else some (String.ofList bare, text.dropWhile isBareChar)

/-- A key: its parts, with points between them. The bound counts parts. -/
def readKey : Nat → Reader (List String)
  | 0, _ => none
  | bound + 1, text => do
    let (part, rest) ← readKeyPart (dropBlanks text)
    match dropBlanks rest with
    | '.' :: rest =>
      let (parts, rest) ← readKey bound rest
      return (part :: parts, rest)
    | rest => return ([part], rest)

/-- The parts of a key on the way to the last one, and the last one. -/
def splitKey : List String → List String × String
  | [] => ([], "")
  | parts@(_ :: _) => (parts.dropLast, parts.getLast (by simp_all))

/-! ### Values -/

/-- Whether a character may stand in a value without quotes. -/
def isWordChar (c : Char) : Bool := isBareChar c || c = '+' || c = '.' || c = ':'

/-- A value without quotes and brackets. A date may go on with a time after a space. -/
def readScalar : Reader Item := fun text =>
  let word := text.takeWhile isWordChar
  let rest := text.dropWhile isWordChar
  let time := rest.tail.takeWhile isWordChar
  if isDate word ∧ rest.head? = some ' ' ∧ isTime true time then
    some (.scalar .datetime, rest.tail.dropWhile isWordChar)
  else (Scalar.ofWord? word).map (.scalar ·, rest)

/-- The elements of an array up to its end. The bound counts elements. -/
def readElements (readValue : Reader Item) : Nat → Reader (List Item)
  | 0, _ => none
  | bound + 1, text => do
    match ← dropLines? text.length text with
    | ']' :: rest => return ([], rest)
    | text =>
      let (item, rest) ← readValue text
      match ← dropLines? rest.length rest with
      | ']' :: rest => return ([item], rest)
      | ',' :: rest =>
        let (items, rest) ← readElements readValue bound rest
        return (item :: items, rest)
      | _ => none

/-- A key, an equals sign and a value, with blanks around each. -/
def readPair (readValue : Reader Item) : Reader (List String × String × Item) := fun text => do
  match ← readKey (maxNesting - 1) text with
  | (key, '=' :: rest) =>
    let (item, rest) ← readValue (dropBlanks rest)
    let (path, last) := splitKey key
    return ((path, last, item), dropBlanks rest)
  | _ => none

/-- The pairs of an inline table up to its end. The bound counts pairs. -/
def readPairs (readValue : Reader Item) : Nat → Reader (List (List String × String × Item))
  | 0, _ => none
  | bound + 1, text => do
    let (pair, rest) ← readPair readValue text
    match rest with
    | '\x7d' :: rest => return ([pair], rest)
    | ',' :: rest =>
      let (pairs, rest) ← readPairs readValue bound rest
      return (pair :: pairs, rest)
    | _ => none

def readValue : Nat → Reader Item
  | bound, '[' :: rest =>
    match bound with
    | bound + 2 =>
      (readElements (readValue (bound + 1)) (rest.length + 1) rest).map fun r =>
        (.array r.1, r.2)
    | _ => none
  | bound, '\x7b' :: rest =>
    match bound with
    | bound + 2 =>
      match dropBlanks rest with
      | '\x7d' :: rest => some (.table .inline [], rest)
      | rest => do
        let (pairs, rest) ← readPairs (readValue (bound + 1)) (rest.length + 1) rest
        return (← inlineTable? pairs, rest)
    | _ => none
  | _, text =>
    match readString? true text with
    | some (s, rest) => some (.string s, rest)
    | none => readScalar text

/-! ### Lines -/

inductive Line where
  | table (path : List String) (key : String)
  | element (path : List String) (key : String)
  | entry (path : List String) (key : String) (item : Item)

def readLine : Reader Line
  | '[' :: '[' :: rest => do
    match ← readKey (maxNesting - 1) rest with
    | (key, ']' :: ']' :: rest) =>
      let (path, last) := splitKey key
      return (.element path last, ← finishLine? rest)
    | _ => none
  | '[' :: rest => do
    match ← readKey (maxNesting - 1) rest with
    | (key, ']' :: rest) =>
      let (path, last) := splitKey key
      return (.table path last, ← finishLine? rest)
    | _ => none
  | text => do
    let ((path, last, item), rest) ← readPair (readValue maxNesting) text
    return (.entry path last item, ← finishLine? rest)

def readLines : Nat → List Char → Option (List Line)
  | 0, _ => none
  | bound + 1, text => do
    match ← dropLines? text.length text with
    | [] => return []
    | text =>
      let (line, rest) ← readLine text
      return line :: (← readLines bound rest)

/-- The lines of a document. A byte order mark in front of it does not count. -/
def linesOf? (text : String) : Option (List Line) :=
  match text.toList with
  | '\ufeff' :: rest => readLines (rest.length + 1) rest
  | rest => readLines (rest.length + 1) rest

end TypedStore.Toml
