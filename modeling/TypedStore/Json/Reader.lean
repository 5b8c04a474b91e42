/-
  TypedStore/Json/Reader.lean
  ===========================
  **Reading tokens as a document.**

  A document is read from left to right, one token at a time, by a machine whose state is what may
  come next together with the containers that are open. What becomes of words, strings, names and
  finished containers is a `Build`, so the same machine serves to build trees and to check text
  without building anything. Reading stops at the first token that does not fit.

  Trees are built in two ways. The strict reading refuses a second member of one name as soon as
  its name has been read; the lenient one lets the later value take the place of the earlier.
-/
import TypedStore.Bytes.Utf8
import TypedStore.Json.NumberText
import TypedStore.Json.StringText
import TypedStore.Json.Token

namespace TypedStore.Json

inductive Fault where
  /-- It is not JSON, or a number or a nesting in it is beyond the bounds. -/
  | malformed
  /-- An object has two members of this name. -/
  | duplicateName (name : String)
deriving DecidableEq, Repr

/-- The description of a fault, as error messages quote it. Where and how a text is malformed is
    not told apart. -/
def Fault.message : Fault → String
  | .malformed => "<json>"
  | .duplicateName name => "duplicate field `" ++ name ++ "`"

/-! ### The machine -/

structure Build (α : Type) where
  /-- A literal name or a number. -/
  word : List Char → Option α
  /-- A string, from its body. -/
  string : List Char → Option α
  /-- The name of the next member, from its body, after the members before it. -/
  name : List (String × α) → List Char → Except Fault String
  /-- The members with one more. -/
  member : List (String × α) → String → α → List (String × α)
  array : List α → α
  object : List (String × α) → α
  /-- Whether a container may be opened as the `n`-th of those that are open. -/
  opens : Nat → Bool

inductive Frame (α : Type) where
  | array (items : List α)
  | object (members : List (String × α)) (name : String)

/-- What may come next; the stack holds the open containers, the innermost first. -/
inductive Reading (α : Type) where
  /-- A value. -/
  | value (stack : List (Frame α))
  /-- The first element of an array, or its end. -/
  | firstItem (stack : List (Frame α))
  /-- The first name of an object, or its end. -/
  | firstName (stack : List (Frame α))
  /-- A further name of an object. -/
  | nextName (members : List (String × α)) (stack : List (Frame α))
  /-- The colon after a name. -/
  | colon (members : List (String × α)) (name : String) (stack : List (Frame α))
  /-- What follows a value: a comma, the end of its container, or the end of the text. -/
  | done (value : α) (stack : List (Frame α))

namespace Build

variable {α : Type} (b : Build α)

def beginValue (stack : List (Frame α)) : Token → Except Fault (Reading α)
  | .word text => ((b.word text).map (.done · stack)).elim (.error .malformed) .ok
  | .string body => ((b.string body).map (.done · stack)).elim (.error .malformed) .ok
  | .beginArray =>
    if b.opens (stack.length + 1) then .ok (.firstItem stack) else .error .malformed
  | .beginObject =>
    if b.opens (stack.length + 1) then .ok (.firstName stack) else .error .malformed
  | _ => .error .malformed

def beginMember (members : List (String × α)) (stack : List (Frame α)) :
    Token → Except Fault (Reading α)
  | .string body => (b.name members body).map (.colon members · stack)
  | _ => .error .malformed

def afterValue (value : α) : List (Frame α) → Token → Except Fault (Reading α)
  | .array items :: stack, .comma => .ok (.value (.array (value :: items) :: stack))
  | .array items :: stack, .endArray => .ok (.done (b.array (value :: items).reverse) stack)
  | .object members name :: stack, .comma => .ok (.nextName (b.member members name value) stack)
  | .object members name :: stack, .endObject =>
    .ok (.done (b.object (b.member members name value)) stack)
  | _, _ => .error .malformed

def step : Reading α → Token → Except Fault (Reading α)
  | .value stack, token => b.beginValue stack token
  | .firstItem stack, .endArray => .ok (.done (b.array []) stack)
  | .firstItem stack, token => b.beginValue (.array [] :: stack) token
  | .firstName stack, .endObject => .ok (.done (b.object []) stack)
  | .firstName stack, token => b.beginMember [] stack token
  | .nextName members stack, token => b.beginMember members stack token
  | .colon members name stack, .colon => .ok (.value (.object members name :: stack))
  | .colon .., _ => .error .malformed
  | .done value stack, token => b.afterValue value stack token

def run : Reading α → List Token → Except Fault (Reading α)
  | reading, [] => .ok reading
  | reading, token :: rest =>
    match b.step reading token with
    | .ok next => run next rest
    | .error fault => .error fault

/-- The value that has been read, if nothing is open and nothing is missing. -/
def finish : Reading α → Except Fault α
  | .done value [] => .ok value
  | _ => .error .malformed

def read (tokens : List Token) : Except Fault α := (b.run (.value []) tokens).bind finish

theorem run_append (r : Reading α) (s t : List Token) :
    b.run r (s ++ t) = (b.run r s).bind (b.run · t) := by
  induction s generalizing r with
  | nil => rfl
  | cons token rest ih =>
    simp only [List.cons_append, run]
    cases b.step r token with
    | ok next => exact ih next
    | error fault => rfl

end Build

/-! ### Trees -/

def maxOpen : Nat := 127

def ofWord? (word : List Char) : Option Json :=
  if word = "null".toList then some .null
  else if word = "true".toList then some (.bool true)
  else if word = "false".toList then some (.bool false)
  else (numberOfWord? word).map .number

def nameOfBody (body : List Char) : Except Fault String :=
  (stringOfBody? body).elim (.error .malformed) .ok

/-- Trees in which a later member replaces an earlier one of its name, at the place of that. -/
def lenient : Build Json where
  word := ofWord?
  string body := (stringOfBody? body).map .string
  name _ := nameOfBody
  member members name value := setMember name value members
  array := .array
  object := .object
  opens n := n ≤ maxOpen

def strict : Build Json :=
  { lenient with
    name := fun members body => do
      let name ← nameOfBody body
      if (find? name members).isSome then .error (.duplicateName name) else .ok name }

/-- Read a text, the last of repeated members being the one that counts. -/
def readLenient (text : String) : Except Fault Json := lenient.read (tokens text.toList)

/-- Read a text in which no object may repeat a name. -/
def readStrict (text : String) : Except Fault Json := strict.read (tokens text.toList)

/-- Read bytes as `readStrict` reads their text. Bytes that are not UTF-8 are no JSON; a fault of
    the text before them still comes first. -/
def readStrictBytes (bytes : Bytes) : Except Fault Json :=
  match Utf8.split bytes with
  | (chars, none) => strict.read (tokens chars)
  | (chars, some _) => strict.run (.value []) (tokens chars) >>= fun _ => .error .malformed

end TypedStore.Json
