/-
  TypedStore/Disk/Path.lean
  =========================
  **Paths as they are written.**

  A path is the list of the parts between its slashes, just as they are written: a part may be
  empty, `.` or `..`, and two paths that are written differently may lead to the same place.
  Error messages show what is written, so nothing is simplified here; where a path leads to
  depends on the disk (`Disk.locate`).
-/

namespace TypedStore

abbrev Path := List String

namespace Path

def prepend (c : Char) : List (List Char) → List (List Char)
  | part :: rest => if c = '/' then [] :: part :: rest else (c :: part) :: rest
  | [] => [[c]]

def ofText (text : String) : Path := (text.toList.foldr prepend [[]]).map String.ofList

def text (path : Path) : String := "/".intercalate path

/-- The path of something in a directory; a slash that ends the path of the directory is not
    doubled. -/
def child (dir : Path) (name : String) : Path :=
  (if dir.getLast? = some "" then dir.dropLast else dir) ++ [name]

def suffixed (path : Path) (ending : String) : Path :=
  path.dropLast ++ [path.getLastD "" ++ ending]

def withoutSlash (path : Path) : Path := (path.reverse.dropWhile (· = "")).reverse

/-- The path without the parts at its end that stay in place. -/
def trimmed (path : Path) : Path :=
  (path.reverse.dropWhile fun part => part = "" ∨ part = ".").reverse

/-- The paths of the directories that a path is written with, the deepest first. -/
def above (path : Path) : List Path :=
  ((List.range path.trimmed.length).reverse.map path.trimmed.take).filter fun p => p.trimmed = p

/-- The most bytes that a path can be written with. -/
def maxBytes : Nat := 4095

def maxNameBytes : Nat := 255

example : (ofText "a//b").child "c" = ofText "a//b/c" := by decide +kernel
example : (ofText "a/").child "c" = ofText "a/c" := by decide +kernel
example : above ["a", ".", "b", "..", "", "c", "."] =
    [["a", ".", "b", ".."], ["a", ".", "b"], ["a"], []] := by decide +kernel

end Path

end TypedStore
