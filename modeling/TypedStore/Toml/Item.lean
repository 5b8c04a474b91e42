/-
  TypedStore/Toml/Item.lean
  =========================
  **TOML documents as trees, and what may be added to one.**

  A table remembers how it came to be, since that decides what may still be added to it. A table
  is opened by a header of its own at most once, whether or not headers of tables inside it came
  before. Dotted keys make tables that only dotted keys of the same section extend. An inline
  table is complete as it stands. A key is given a value once.
-/
import TypedStore.Json.Basic
import TypedStore.Toml.Scalar

namespace TypedStore.Toml

inductive Origin where
  /-- By a header of its own, or as the document itself. -/
  | header
  /-- On the way to a table that has a header. -/
  | implied
  /-- On the way of a dotted key. -/
  | dotted
  /-- Between braces. -/
  | inline
deriving DecidableEq, Repr

inductive Item where
  | scalar (s : Scalar)
  | string (s : String)
  | array (items : List Item)
  | table (origin : Origin) (entries : List (String × Item))
  /-- An array of tables that grows by headers; the last table is the one that is added to. -/
  | tables (earlier : List (List (String × Item))) (last : List (String × Item))

/-- The entries of a table in the order in which they were added. -/
abbrev Entries := List (String × Item)

/-- Change the table that a path leads to. Tables that are missing on the way are made, with the
    given origin; only tables that may be entered are, and of an array of tables the last one. -/
def descend (enters : Origin → Bool) (made : Origin)
    (change : Origin → Entries → Option (Origin × Entries)) :
    List String → Origin → Entries → Option (Origin × Entries)
  | [], origin, entries => change origin entries
  | key :: path, origin, entries =>
    match Json.find? key entries with
    | none =>
      (descend enters made change path made []).map fun (o, sub) =>
        (origin, Json.setMember key (.table o sub) entries)
    | some (.table o sub) =>
      if enters o then
        (descend enters made change path o sub).map fun (o, sub) =>
          (origin, Json.setMember key (.table o sub) entries)
      else none
    | some (.tables earlier last) =>
      (descend enters made change path .header last).map fun (_, last) =>
        (origin, Json.setMember key (.tables earlier last) entries)
    | some _ => none

/-- Give a key of a table a value. After a dotted key has led there, the table must be one that
    dotted keys make. -/
def addEntry (path : List String) (key : String) (item : Item) (origin : Origin)
    (entries : Entries) : Option (Origin × Entries) :=
  descend (fun o => o = .implied || o = .dotted) .dotted
    (fun o es =>
      if path ≠ [] ∧ o ≠ .dotted then none
      else if (Json.find? key es).isSome then none
      else some (o, es ++ [(key, item)]))
    path origin entries

def openTable (path : List String) (key : String) (entries : Entries) : Option Entries :=
  (descend (· ≠ .inline) .implied
    (fun o es =>
      match Json.find? key es with
      | none => some (o, es ++ [(key, .table .header [])])
      | some (.table .implied sub) => some (o, Json.setMember key (.table .header sub) es)
      | some _ => none)
    path .header entries).map (·.2)

/-- Add a table to an array of tables by a header. -/
def openElement (path : List String) (key : String) (entries : Entries) : Option Entries :=
  (descend (· ≠ .inline) .implied
    (fun o es =>
      match Json.find? key es with
      | none => some (o, es ++ [(key, .tables [] [])])
      | some (.tables earlier last) =>
        some (o, Json.setMember key (.tables (earlier ++ [last]) []) es)
      | some _ => none)
    path .header entries).map (·.2)

/-- Give a key a value in the section that a header has opened. -/
def addToSection (header path : List String) (key : String) (item : Item) (entries : Entries) :
    Option Entries :=
  (descend (fun _ => true) .header (addEntry path key item) header .header entries).map (·.2)

def inlineTable? (pairs : List (List String × String × Item)) : Option Item := do
  let entries ← pairs.foldlM (fun (entries : Entries) (path, key, item) =>
    (addEntry path key item .inline entries).map (·.2)) []
  return .table .inline entries

end TypedStore.Toml
