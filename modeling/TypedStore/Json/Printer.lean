/-
  TypedStore/Json/Printer.lean
  ============================
  **The compact text of a JSON tree.**

  No blanks between tokens, members and elements in their order, one text per tree.
-/
import TypedStore.Json.NumberText
import TypedStore.Json.StringText

namespace TypedStore.Json

mutual

def write : Json → List Char
  | .null => "null".toList
  | .bool true => "true".toList
  | .bool false => "false".toList
  | .number n => n.write
  | .string s => writeString s
  | .array items => '[' :: writeItems items ++ [']']
  | .object members => '\x7b' :: writeMembers members ++ ['\x7d']

/-- The texts of the elements, with commas between them. -/
def writeItems : List Json → List Char
  | [] => []
  | [item] => write item
  | item :: next :: rest => write item ++ ',' :: writeItems (next :: rest)

/-- The names and texts of the members, with commas between them. -/
def writeMembers : List (String × Json) → List Char
  | [] => []
  | [(name, value)] => writeString name ++ ':' :: write value
  | (name, value) :: next :: rest =>
    writeString name ++ ':' :: write value ++ ',' :: writeMembers (next :: rest)

end

def text (json : Json) : String := String.ofList (write json)

example : text (.object [("a", .array [.null, .bool true]), ("b\n", .string "é")]) =
    "\x7b\"a\":[null,true],\"b\\n\":\"é\"\x7d" := by decide +kernel

end TypedStore.Json
