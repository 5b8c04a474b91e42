/-
  TypedStore/Tagged/Decoding.lean
  ===============================
  **Reading values back from tagged JSON.**

  Decoding is strict. Every node has to be an object of the two members `t` and `v`, in either
  order, with the tag of a kind and a payload of the type that the kind demands; integers have to
  fit the width of their tag; arrays and objects may be nested `maxDepth` deep. A node is checked
  before the nodes in its payload and these in their order, so the fault that is reported is that
  of the first node with one, and of several faults of a node the first in the order of
  `NodeFault`.
-/
import TypedStore.Json.Reader
import TypedStore.Tagged.Path
import TypedStore.Value.Shape

namespace TypedStore

inductive NodeFault where
  | notObject (found : String)
  | unexpectedField (name : String)
  | missingField (name : String)
  | tagNotString (found : String)
  | tooDeep
  | shape (fault : ShapeFault)
deriving DecidableEq, Repr

def NodeFault.message : NodeFault → String
  | .notObject found => "expected tagged object, found " ++ found
  | .unexpectedField name => "unexpected field '" ++ name ++ "'"
  | .missingField name => "missing field '" ++ name ++ "'"
  | .tagNotString found => "tag must be a string, found " ++ found
  | .tooDeep => "nesting exceeds " ++ maxDepth.repr ++ " levels"
  | .shape fault => fault.message

inductive DecodeFault where
  | notJson (fault : Json.Fault)
  | malformed (path : NodePath) (fault : NodeFault)
  /-- An integer that does not fit the width of its tag. -/
  | overflow (path : NodePath) (kind : Kind) (n : Int)
deriving DecidableEq, Repr

namespace DecodeFault

def message : DecodeFault → String
  | .notJson fault => "Invalid JSON: " ++ fault.message
  | .malformed path fault => "Malformed tag at " ++ path.text ++ ": " ++ fault.message
  | .overflow path kind n =>
    "Numeric overflow at " ++ path.text ++ ": " ++ n.repr ++ " does not fit '" ++ kind.tag ++ "'"

def reason : DecodeFault → String
  | .notJson _ => "invalid_json"
  | .malformed .. => "malformed_tag"
  | .overflow .. => "numeric_overflow"

def path? : DecodeFault → Option NodePath
  | .notJson _ => none
  | .malformed path _ | .overflow path .. => some path

/-- The fault of a node whose payload does not make a scalar. -/
def ofShape (path : NodePath) : ShapeFault → DecodeFault
  | .outOfRange kind n => .overflow path kind n
  | fault => .malformed path (.shape fault)

end DecodeFault

namespace Value

/-! ### One node -/

/-- What is wrong with the members of a node that are not exactly a tag and a payload. -/
def membersFault (members : List (String × Json)) : NodeFault :=
  match members.find? fun m => m.1 ≠ "t" ∧ m.1 ≠ "v" with
  | some (name, _) => .unexpectedField name
  | none => if (Json.find? "t" members).isSome then .missingField "v" else .missingField "t"

/-- The kind that a node's tag names, if a node of that kind may stand at this depth. -/
def kindOfTag (depth : Nat) (tag : Json) : Except NodeFault Kind :=
  match tag with
  | .string name =>
    match Kind.ofTag? name with
    | some kind => if kind.isComposite ∧ maxDepth ≤ depth then .error .tooDeep else .ok kind
    | none => .error (.shape (.unknownTag name))
  | other => .error (.tagNotString other.typeName)

/-- The scalar that the payload of the node at `path` makes. -/
def decodeScalar (path : NodePath) (kind : Kind) (payload : Json) : Except DecodeFault Value :=
  if kind.isComposite then .error (.malformed path (.shape (.mismatch kind payload.typeName)))
  else (ofPayload kind payload).mapError (.ofShape path)

/-! ### The tree -/

mutual

def decodeAt (path : NodePath) : Json → Except DecodeFault Value
  | .object [(a, x), (b, y)] =>
    if a = "t" ∧ b = "v" then
      match kindOfTag path.length x with
      | .ok kind => decodePayload path kind y
      | .error fault => .error (.malformed path fault)
    else if a = "v" ∧ b = "t" then
      match kindOfTag path.length y with
      | .ok kind => decodePayload path kind x
      | .error fault => .error (.malformed path fault)
    else .error (.malformed path (membersFault [(a, x), (b, y)]))
  | .object members => .error (.malformed path (membersFault members))
  | other => .error (.malformed path (.notObject other.typeName))

/-- The value of that kind that the payload of the node at `path` makes. -/
def decodePayload (path : NodePath) (kind : Kind) : Json → Except DecodeFault Value
  | .array items =>
    if kind = .arr then (decodeItems path 0 items).map .arr
    else decodeScalar path kind (.array items)
  | .object members =>
    if kind = .obj then (decodeMembers path members).map .obj
    else decodeScalar path kind (.object members)
  | other => decodeScalar path kind other

/-- The values of the elements from the `i`-th on of the array at `path`. -/
def decodeItems (path : NodePath) (i : Nat) : List Json → Except DecodeFault (List Value)
  | [] => .ok []
  | item :: rest =>
    match decodeAt (path ++ [.index i]) item with
    | .error fault => .error fault
    | .ok value => (decodeItems path (i + 1) rest).map (value :: ·)

def decodeMembers (path : NodePath) :
    List (String × Json) → Except DecodeFault (List (String × Value))
  | [] => .ok []
  | (name, member) :: rest =>
    match decodeAt (path ++ [.field name]) member with
    | .error fault => .error fault
    | .ok value => (decodeMembers path rest).map ((name, value) :: ·)

end

def decode (tree : Json) : Except DecodeFault Value := decodeAt [] tree

def decodeText (text : String) : Except DecodeFault Value :=
  match Json.readStrict text with
  | .ok tree => decode tree
  | .error fault => .error (.notJson fault)

def decodeBytes (bytes : Bytes) : Except DecodeFault Value :=
  match Json.readStrictBytes bytes with
  | .ok tree => decode tree
  | .error fault => .error (.notJson fault)

end Value

end TypedStore
