/-
  TypedStore/Toml/Document.lean
  =============================
  **The document that lines make.**

  Lines are taken in order; a header opens the section to which the entries after it belong.
-/
import TypedStore.Toml.Line

namespace TypedStore.Toml

structure Section where
  header : List String
  entries : Entries

namespace Section

def add (s : Section) : Line → Option Section
  | .table path key => (openTable path key s.entries).map (⟨path ++ [key], ·⟩)
  | .element path key => (openElement path key s.entries).map (⟨path ++ [key], ·⟩)
  | .entry path key item =>
    (addToSection s.header path key item s.entries).map (⟨s.header, ·⟩)

end Section

/-- The entries of the document that a text writes. -/
def documentOf? (text : String) : Option Entries := do
  let lines ← linesOf? text
  let document ← lines.foldlM Section.add ⟨[], []⟩
  return document.entries

def keysOf? (text : String) : Option (List String) := (documentOf? text).map (·.map (·.1))

example : keysOf? "a.b = 1\na.c = [1, 2]\n[d.e]\n[d]\n" = some ["a", "d"] := by decide +kernel
example : keysOf? "a = 1\na = 2" = none ∧ keysOf? "[a]\n[a]" = none ∧
    keysOf? "a.b = 1\n[a]" = none := by decide +kernel
example : keysOf? "a = \x7b b.c = 1, b.d = 2 \x7d # x" = some ["a"] := by decide +kernel

end TypedStore.Toml
