/-
  TypedStore/Value/Kind.lean
  ==========================
  **The ten kinds of value, and their tags.**

  Every stored value carries the tag of its kind. The tags are pairwise different, so a tag names
  one kind (`ofTag?_tag`).
-/

namespace TypedStore

inductive Kind where
  | i32
  | u32
  | i64
  | u64
  | f64
  | bool
  | str
  | arr
  | obj
  | null
deriving DecidableEq, Repr

namespace Kind

/-- The kinds in the order in which they are listed. -/
def all : List Kind := [.i32, .u32, .i64, .u64, .f64, .bool, .str, .arr, .obj, .null]

def tag : Kind → String
  | .i32 => "i32"
  | .u32 => "u32"
  | .i64 => "i64"
  | .u64 => "u64"
  | .f64 => "f64"
  | .bool => "bool"
  | .str => "str"
  | .arr => "arr"
  | .obj => "obj"
  | .null => "null"

def ofTag? (tag : String) : Option Kind := all.find? fun kind => kind.tag = tag

def isComposite : Kind → Bool
  | .arr | .obj => true
  | _ => false

theorem ofTag?_tag (kind : Kind) : ofTag? kind.tag = some kind := by cases kind <;> decide

theorem tag_of_ofTag? {tag : String} {kind : Kind} (h : ofTag? tag = some kind) :
    kind.tag = tag := by
  simpa using List.find?_some h

end Kind

end TypedStore
