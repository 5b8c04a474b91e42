/-
  TypedStore/Json/Embedded.lean
  =============================
  **Documents that hold values as text.**

  In such a document one member name is reserved. An object that begins with it does not stand for
  itself: it has to be the only member, its value has to be a string, and the object stands for the
  value of the document that the string holds, which may in turn hold values as text. Further on
  among the members of an object the name means nothing.

  The members of an object are first kept as they are written. So the text of a member counts even
  if a later member of the same name replaces it, and a string is told from an object that stands
  for a string. Then the texts are read, and what replaces what is decided as in the lenient
  reading. A held document has a nesting of its own, and the one around it does not limit it.
-/
import TypedStore.Json.Reader

namespace TypedStore.Json

/-- Trees whose objects keep every member in the order in which they are written. -/
def written : Build Json :=
  { lenient with
    member := fun members name value => (name, value) :: members
    object := fun members => .object members.reverse }

/-- The text that an object holds, or the fault in how it holds it, if it begins with the reserved
    name. -/
def heldText? (reserved : String) : List (String × Json) → Option (Except Fault String)
  | [] => none
  | (name, value) :: rest =>
    if name = reserved then
      match value, rest with
      | .string text, [] => some (.ok text)
      | _, _ => some (.error .malformed)
    else none

/-- The members that count: of those of one name the last, at the place of the first. -/
def lastMembers (members : List (String × Json)) : List (String × Json) :=
  members.foldl (fun kept m => setMember m.1 m.2 kept) []

mutual

/-- The tree that a tree of written members stands for, if `read` reads the texts in it. -/
def expand (reserved : String) (read : String → Except Fault Json) : Json → Except Fault Json
  | .array items => (expandItems reserved read items).map .array
  | .object members =>
    match heldText? reserved members with
    | some held => held.bind read
    | none => (expandMembers reserved read members).map fun kept => .object (lastMembers kept)
  | tree => .ok tree

def expandItems (reserved : String) (read : String → Except Fault Json) :
    List Json → Except Fault (List Json)
  | [] => .ok []
  | item :: rest => do
    let tree ← expand reserved read item
    return tree :: (← expandItems reserved read rest)

def expandMembers (reserved : String) (read : String → Except Fault Json) :
    List (String × Json) → Except Fault (List (String × Json))
  | [] => .ok []
  | (name, value) :: rest => do
    let tree ← expand reserved read value
    return (name, tree) :: (← expandMembers reserved read rest)

end

/-- Read a document in which texts are held in one another less than `depth` deep. -/
def readHeld (reserved : String) : Nat → String → Except Fault Json
  | 0, _ => .error .malformed
  | depth + 1, text =>
    (written.read (tokens text.toList)).bind (expand reserved (readHeld reserved depth))

/-- Read a document in which the reserved name marks the values that are held as text. A held text
    is shorter than the one that it stands in, so the length of the text bounds how deep texts can
    be held in one another. -/
def readEmbedded (reserved text : String) : Except Fault Json :=
  readHeld reserved (text.length + 1) text

end TypedStore.Json
