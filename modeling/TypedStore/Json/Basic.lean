/-
  TypedStore/Json/Basic.lean
  ==========================
  **JSON as trees.**

  A tree keeps what a reader can tell apart: whether a number was written as an integer or as a
  float, the order of array elements and the order of object members. Integers are those of
  sixty-four bits, signed or unsigned, and floats are finite; both bounds are part of `Number`, so
  a number that no text can write is not a `Number`.

  The trees that reading produces repeat no member name within an object (`Json.Distinct`).
-/
import TypedStore.Number.Binary64

namespace TypedStore

inductive Json.Number where
  /-- Written without point and exponent, and within sixty-four bits. -/
  | int (value : { n : Int // -0x8000000000000000 ≤ n ∧ n < 0x10000000000000000 })
  /-- Any other number, to the nearest float. -/
  | float (value : { x : Binary64 // x.isFinite })
deriving DecidableEq

inductive Json where
  | null
  | bool (b : Bool)
  | number (n : Json.Number)
  | string (s : String)
  | array (items : List Json)
  | object (members : List (String × Json))

namespace Json

/-- The name of a tree's type, as error messages use it. -/
def typeName : Json → String
  | .null => "null"
  | .bool _ => "boolean"
  | .number (.int _) => "integer"
  | .number (.float _) => "float"
  | .string _ => "string"
  | .array _ => "array"
  | .object _ => "object"

/-! ### Members -/

def find? {α : Type u} (name : String) : List (String × α) → Option α
  | [] => none
  | (n, v) :: rest => if n = name then some v else find? name rest

/-- Give the member of that name a value: in its place if there is one, else at the end. -/
def setMember {α : Type u} (name : String) (value : α) : List (String × α) → List (String × α)
  | [] => [(name, value)]
  | (n, v) :: rest =>
    if n = name then (name, value) :: rest else (n, v) :: setMember name value rest

/-- The member of an object, if the tree is one that has it. -/
def member? (name : String) : Json → Option Json
  | .object members => find? name members
  | _ => none

theorem find?_setMember {α : Type u} (name other : String) (value : α) (l : List (String × α)) :
    find? other (setMember name value l) =
      if other = name then some value else find? other l := by
  induction l with
  | nil => simp [setMember, find?, eq_comm]
  | cons m rest ih =>
    obtain ⟨n, v⟩ := m
    by_cases h : n = name
    · subst h
      by_cases ho : n = other
      · simp [setMember, find?, ho]
      · simp [setMember, find?, ho, Ne.symm ho]
    · by_cases ho : n = other
      · subst ho
        simp [setMember, find?, h]
      · simp [setMember, find?, h, ho, ih]

theorem find?_eq_none_iff {α : Type u} {name : String} {l : List (String × α)} :
    find? name l = none ↔ name ∉ l.map (·.1) := by
  induction l with
  | nil => simp [find?]
  | cons m rest ih =>
    obtain ⟨n, v⟩ := m
    by_cases h : n = name
    · simp [find?, h]
    · simp [find?, h, ih, Ne.symm h]

theorem mem_of_find?_eq_some {α : Type u} {name : String} {value : α} {l : List (String × α)}
    (h : find? name l = some value) : (name, value) ∈ l := by
  induction l with
  | nil => cases h
  | cons m rest ih =>
    obtain ⟨n, v⟩ := m
    by_cases hn : n = name
    · rw [find?, if_pos hn] at h
      rw [hn, Option.some.inj h]
      exact List.mem_cons_self
    · rw [find?, if_neg hn] at h
      exact List.mem_cons_of_mem _ (ih h)

/-- If no name is repeated, each member is the one that is found under its name. -/
theorem find?_eq_some_iff {α : Type u} {name : String} {value : α} {l : List (String × α)}
    (h : (l.map (·.1)).Nodup) : find? name l = some value ↔ (name, value) ∈ l := by
  refine ⟨mem_of_find?_eq_some, fun hmem => ?_⟩
  induction l with
  | nil => cases hmem
  | cons m rest ih =>
    obtain ⟨hnew, hrest⟩ := List.nodup_cons.1 h
    rcases List.mem_cons.1 hmem with rfl | hmem
    · exact if_pos rfl
    · have hne : m.1 ≠ name := by
        rintro rfl
        exact hnew (List.mem_map_of_mem (f := (·.1)) hmem)
      rw [find?, if_neg hne, ih hrest hmem]

theorem find?_perm {α : Type u} {l l' : List (String × α)} (hperm : l.Perm l')
    (h : (l.map (·.1)).Nodup) (name : String) : find? name l = find? name l' := by
  have h' : (l'.map (·.1)).Nodup := (hperm.map _).nodup_iff.1 h
  ext value
  rw [find?_eq_some_iff h, find?_eq_some_iff h', hperm.mem_iff]

theorem find?_append {α : Type u} (name : String) (l l' : List (String × α)) :
    find? name (l ++ l') = (find? name l).or (find? name l') := by
  induction l with
  | nil => rfl
  | cons m rest ih =>
    obtain ⟨n, v⟩ := m
    by_cases hn : n = name
    · simp only [List.cons_append, find?, if_pos hn, Option.some_or]
    · simp only [List.cons_append, find?, if_neg hn, ih]

/-- Setting a new member appends it. -/
theorem setMember_of_find?_eq_none {α : Type u} {name : String} {value : α}
    {l : List (String × α)} (h : find? name l = none) :
    setMember name value l = l ++ [(name, value)] := by
  induction l with
  | nil => rfl
  | cons m rest ih =>
    obtain ⟨n, v⟩ := m
    by_cases hn : n = name
    · simp [find?, hn] at h
    · simp only [find?, hn, ↓reduceIte] at h
      simp [setMember, hn, ih h]

/-- A name that is not repeated is new to the members before it, and is set after them. -/
theorem new_of_nodup {α : Type u} {l : List (String × α)} {name : String} {more : List String}
    (h : (l.map (·.1) ++ name :: more).Nodup) (value : α) :
    find? name l = none ∧ setMember name value l = l ++ [(name, value)] := by
  have hnew : find? name l = none := by
    rw [find?_eq_none_iff]
    intro hmem
    exact (List.nodup_append.1 h).2.2 name hmem name List.mem_cons_self rfl
  exact ⟨hnew, setMember_of_find?_eq_none hnew⟩

/-! ### Distinct member names -/

mutual

/-- No object within the tree has two members of one name. -/
def Distinct : Json → Prop
  | .array items => DistinctItems items
  | .object members => (members.map (·.1)).Nodup ∧ DistinctMembers members
  | _ => True

def DistinctItems : List Json → Prop
  | [] => True
  | item :: rest => Distinct item ∧ DistinctItems rest

def DistinctMembers : List (String × Json) → Prop
  | [] => True
  | (_, value) :: rest => Distinct value ∧ DistinctMembers rest

end

end Json

end TypedStore
