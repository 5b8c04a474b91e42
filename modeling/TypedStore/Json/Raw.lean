/-
  TypedStore/Json/Raw.lean
  ========================
  **JSON values that are kept as they are written.**

  A `RawText` is the text of one JSON value, without blanks around it. Only its grammar has been
  checked: the size of its numbers, the halves of surrogate pairs, repeated names and the depth of
  nesting are left to whoever reads it.

  A raw object is a document that maps names to such texts. It is written compactly with its
  names in ascending order, and reading it gives every text back as it was. Of a repeated name
  the last value counts.
-/
import TypedStore.Json.Reader
import TypedStore.SortedMap

namespace TypedStore.Json

def grammar : Build Unit where
  word word :=
    if word = "null".toList ∨ word = "true".toList ∨ word = "false".toList ∨
      (NumberText.ofChars? word).isSome then some () else none
  string body := (pieces? body).map fun _ => ()
  name _ body := (pieces? body).elim (.error .malformed) fun _ => .ok ""
  member _ _ _ := []
  array _ := ()
  object _ := ()
  opens _ := true

/-- Whether a text is one JSON value by its grammar. -/
def isValueText (text : List Char) : Bool := (grammar.read (tokens text)).toBool

def trim (text : List Char) : List Char :=
  ((text.dropWhile isBlank).reverse.dropWhile isBlank).reverse

theorem dropWhile_dropWhile {α : Type u} (p : α → Bool) (l : List α) :
    (l.dropWhile p).dropWhile p = l.dropWhile p := by
  induction l with
  | nil => rfl
  | cons a l ih => by_cases h : p a <;> simp [h, ih]

/-- What is left of a trimmed text keeps its first character. -/
theorem dropWhile_eq_self_of_prefix {α : Type u} {p : α → Bool} {a b : List α}
    (ha : a.dropWhile p = a) (hb : b <+: a) : b.dropWhile p = b := by
  obtain ⟨t, rfl⟩ := hb
  cases b with
  | nil => rfl
  | cons x b =>
    have hx : p x = false := by
      by_cases hp : p x = true
      · have hlen := congrArg List.length ha
        have hle := (List.dropWhile_suffix p (l := b ++ t)).length_le
        simp [hp] at hlen hle
        omega
      · simpa using hp
    simp [hx]

theorem trim_trim (text : List Char) : trim (trim text) = trim text := by
  unfold trim
  have hfront : ∀ l : List Char,
      (((l.dropWhile isBlank).reverse.dropWhile isBlank).reverse).dropWhile isBlank =
        ((l.dropWhile isBlank).reverse.dropWhile isBlank).reverse := fun l => by
    refine dropWhile_eq_self_of_prefix (dropWhile_dropWhile isBlank l) ?_
    have := List.dropWhile_suffix isBlank (l := (l.dropWhile isBlank).reverse)
    simpa using List.reverse_prefix.2 this
  rw [hfront text, List.reverse_reverse, dropWhile_dropWhile]

/-- The text of one JSON value, without blanks around it. -/
structure RawText where
  chars : List Char
  isValue : isValueText chars = true
  isTrim : trim chars = chars
deriving DecidableEq

namespace RawText

def ofChars? (text : List Char) : Option RawText :=
  if h : isValueText (trim text) then some ⟨trim text, h, trim_trim text⟩ else none

def bytes (raw : RawText) : Bytes := Utf8.encodeChars raw.chars

end RawText

/-! ### Raw objects -/

abbrev RawObject := SortedMap String RawText

inductive RawReading where
  /-- Before the object. -/
  | start
  /-- After its opening: a name or the end. -/
  | first
  /-- After a comma: a name. -/
  | next (entries : RawObject)
  /-- After a name. -/
  | colon (entries : RawObject) (name : String)
  /-- Inside a value, `depth` containers of which are open; what has been read of it. -/
  | value (entries : RawObject) (name : String) (depth : Nat) (text : List Char)
  /-- After the object. -/
  | done (entries : RawObject)

namespace RawReading

/-- The entries with the value that ends here, unless that is none. -/
def close? (entries : RawObject) (name : String) (text : List Char) : Option RawObject :=
  (RawText.ofChars? text).map (entries.insert name)

def name? (entries : RawObject) : Token → Option RawReading
  | .string body => (stringOfBody? body).map (.colon entries)
  | _ => none

/-- Read a token of a value, or the one that ends it. -/
def value? (entries : RawObject) (name : String) (depth : Nat) (text : List Char) (l : Lexeme) :
    Option RawReading :=
  match depth, l.token with
  | 0, .comma => (close? entries name text).map .next
  | 0, .endObject => (close? entries name text).map .done
  | 0, .endArray => none
  | depth, .beginArray | depth, .beginObject =>
    some (.value entries name (depth + 1) (text ++ l.text))
  | depth + 1, .endArray | depth + 1, .endObject =>
    some (.value entries name depth (text ++ l.text))
  | depth, _ => some (.value entries name depth (text ++ l.text))

def step? : RawReading → Lexeme → Option RawReading
  | .start, ⟨_, .beginObject⟩ => some .first
  | .first, ⟨_, .endObject⟩ => some (.done .empty)
  | .first, l => name? .empty l.token
  | .next entries, l => name? entries l.token
  | .colon entries name, ⟨_, .colon⟩ => some (.value entries name 0 [])
  | .value entries name depth text, l => value? entries name depth text l
  | _, _ => none

end RawReading

namespace RawObject

def ofChars? (text : List Char) : Option RawObject :=
  match (lex text).foldlM RawReading.step? .start with
  | some (.done entries) => some entries
  | _ => none

def ofBytes? (bytes : Bytes) : Option RawObject :=
  match Utf8.split bytes with
  | (chars, none) => ofChars? chars
  | (_, some _) => none

def writeEntry (entry : String × RawText) : List Char :=
  writeString entry.1 ++ ':' :: entry.2.chars

def write (entries : RawObject) : List Char :=
  '\x7b' :: [','].intercalate (entries.toList.map writeEntry) ++ ['\x7d']

def toBytes (entries : RawObject) : Bytes := Utf8.encodeChars (write entries)

end RawObject

end TypedStore.Json
