/-
  TypedStore/Proofs/Codec/Builds.lean
  ===================================
  **One reading, from which others follow.**

  Where what one build makes of words, names and containers is carried over to what another makes of
  them (`Build.Carries`), whole readings are (`Carries.read`): the machine is the same.

  The trees of a document as it is written keep every member. What the lenient reading builds follows
  from them: at each object only the last of repeated members is left, at the place of the first
  (`readLenient_eq`). The strict reading follows in the same way from a reading as written that stops at
  a repeated name (`readStrict_eq`); a tree without repeated names is left as it is
  (`collapse_of_distinct`).
-/
import TypedStore.Json.Embedded
import TypedStore.Proofs.Codec.Reading
import TypedStore.Proofs.Results

namespace TypedStore.Json

variable {α β : Type}

/-! ### Carrying a reading over -/

/-- An open container with what has been read of it carried over. -/
def Frame.map (value : α → β) (members : List (String × α) → List (String × β)) :
    Frame α → Frame β
  | .array items => .array (items.map value)
  | .object ms name => .object (members ms) name

def Reading.map (value : α → β) (members : List (String × α) → List (String × β)) :
    Reading α → Reading β
  | .value stack => .value (stack.map (Frame.map value members))
  | .firstItem stack => .firstItem (stack.map (Frame.map value members))
  | .firstName stack => .firstName (stack.map (Frame.map value members))
  | .nextName ms stack => .nextName (members ms) (stack.map (Frame.map value members))
  | .colon ms name stack => .colon (members ms) name (stack.map (Frame.map value members))
  | .done a stack => .done (value a) (stack.map (Frame.map value members))

namespace Build

/-- What the first build makes is carried over to what the second one makes. -/
structure Carries (b : Build α) (c : Build β) (value : α → β)
    (members : List (String × α) → List (String × β)) : Prop where
  word (text : List Char) : c.word text = (b.word text).map value
  string (body : List Char) : c.string body = (b.string body).map value
  name (ms : List (String × α)) (body : List Char) : c.name (members ms) body = b.name ms body
  noMembers : members [] = []
  member (ms : List (String × α)) (name : String) (a : α) :
    c.member (members ms) name (value a) = members (b.member ms name a)
  array (items : List α) : c.array (items.map value) = value (b.array items)
  object (ms : List (String × α)) : c.object (members ms) = value (b.object ms)
  opens (n : Nat) : c.opens n = b.opens n

namespace Carries

variable {b : Build α} {c : Build β} {value : α → β}
  {members : List (String × α) → List (String × β)} (h : Carries b c value members)
include h

theorem beginValue (stack : List (Frame α)) (token : Token) :
    c.beginValue (stack.map (Frame.map value members)) token =
      (b.beginValue stack token).map (Reading.map value members) := by
  cases token with
  | word text =>
    rw [Build.beginValue, Build.beginValue, h.word]
    cases b.word text <;> rfl
  | string body =>
    rw [Build.beginValue, Build.beginValue, h.string]
    cases b.string body <;> rfl
  | beginArray =>
    rw [Build.beginValue, Build.beginValue, h.opens, List.length_map]
    split <;> rfl
  | beginObject =>
    rw [Build.beginValue, Build.beginValue, h.opens, List.length_map]
    split <;> rfl
  | _ => rfl

theorem beginMember (ms : List (String × α)) (stack : List (Frame α)) (token : Token) :
    c.beginMember (members ms) (stack.map (Frame.map value members)) token =
      (b.beginMember ms stack token).map (Reading.map value members) := by
  cases token with
  | string body =>
    rw [Build.beginMember, Build.beginMember, h.name]
    cases b.name ms body <;> rfl
  | _ => rfl

theorem afterValue (a : α) (stack : List (Frame α)) (token : Token) :
    c.afterValue (value a) (stack.map (Frame.map value members)) token =
      (b.afterValue a stack token).map (Reading.map value members) := by
  cases stack with
  | nil => rfl
  | cons frame stack =>
    cases frame with
    | array items =>
      cases token with
      | endArray =>
        have harray := h.array (a :: items).reverse
        rw [List.map_reverse, List.map_cons] at harray
        exact congrArg (fun built => Except.ok (Reading.done built _)) harray
      | _ => rfl
    | object ms name =>
      cases token with
      | comma => exact congrArg (fun built => Except.ok (Reading.nextName built _)) (h.member ms name a)
      | endObject =>
        have hobject := h.object (b.member ms name a)
        rw [← h.member] at hobject
        exact congrArg (fun built => Except.ok (Reading.done built _)) hobject
      | _ => rfl

theorem step (r : Reading α) (token : Token) :
    c.step (r.map value members) token = (b.step r token).map (Reading.map value members) := by
  cases r with
  | value stack => exact h.beginValue stack token
  | firstItem stack =>
    by_cases hend : token = .endArray
    · subst hend
      exact congrArg (fun built => Except.ok (Reading.done built _)) (h.array [])
    · rw [Reading.map, Build.step_firstItem _ hend, Build.step_firstItem _ hend]
      exact h.beginValue (.array [] :: stack) token
  | firstName stack =>
    by_cases hend : token = .endObject
    · subst hend
      have hobject := h.object []
      rw [h.noMembers] at hobject
      exact congrArg (fun built => Except.ok (Reading.done built _)) hobject
    · rw [Reading.map, Build.step_firstName _ hend, Build.step_firstName _ hend]
      have hmember := h.beginMember [] stack token
      rwa [h.noMembers] at hmember
  | nextName ms stack => exact h.beginMember ms stack token
  | colon ms name stack => cases token <;> rfl
  | done a stack => exact h.afterValue a stack token

theorem run (r : Reading α) (ts : List Token) :
    c.run (r.map value members) ts = (b.run r ts).map (Reading.map value members) := by
  induction ts generalizing r with
  | nil => rfl
  | cons token ts ih =>
    rw [Build.run, Build.run, h.step]
    cases b.step r token with
    | ok next => exact ih next
    | error fault => rfl

omit h in
theorem finish (r : Reading α) :
    Build.finish (r.map value members) = (Build.finish r).map value := by
  cases r with
  | done a stack => cases stack <;> rfl
  | _ => rfl

/-- What the second build reads is what the first one reads, carried over. -/
theorem read (ts : List Token) : c.read ts = (b.read ts).map value := by
  rw [Build.read, Build.read]
  have hrun := h.run (.value []) ts
  cases hlast : b.run (.value []) ts with
  | ok last =>
    rw [hlast] at hrun
    exact (congrArg (Except.bind · Build.finish) hrun).trans (finish last)
  | error fault =>
    rw [hlast] at hrun
    exact congrArg (Except.bind · Build.finish) hrun

end Carries

end Build

/-! ### What counts of repeated members -/

theorem find?_foldl_setMember (name : String) (ms kept : List (String × Json)) :
    (find? name (ms.foldl (fun kept m => setMember m.1 m.2 kept) kept)).isSome =
      ((find? name kept).isSome || (find? name ms).isSome) := by
  induction ms generalizing kept with
  | nil => simp [find?]
  | cons m rest ih =>
    rw [List.foldl_cons, ih, find?_setMember, find?]
    by_cases h : m.1 = name
    · simp [h]
    · simp [h, Ne.symm h]

/-- The members that count have the names of all. -/
theorem isSome_find?_lastMembers (name : String) (ms : List (String × Json)) :
    (find? name (lastMembers ms)).isSome = (find? name ms).isSome := by
  rw [lastMembers, find?_foldl_setMember]
  rfl

theorem lastMembers_concat (ms : List (String × Json)) (m : String × Json) :
    lastMembers (ms ++ [m]) = setMember m.1 m.2 (lastMembers ms) := by
  rw [lastMembers, List.foldl_append]
  rfl

/-- If no name is repeated all members count. -/
theorem lastMembers_of_nodup {ms : List (String × Json)} (h : (ms.map (·.1)).Nodup) :
    lastMembers ms = ms := by
  induction ms using List.reverseRecOn with
  | nil => rfl
  | append_singleton ms m ih =>
    rw [List.map_append] at h
    obtain ⟨-, hset⟩ := new_of_nodup h m.2
    rw [lastMembers_concat, ih (List.nodup_append.1 h).1, hset]

mutual

/-- The tree in which at each object the last of repeated members is left, at the place of the first. -/
def collapse : Json → Json
  | .array items => .array (collapseItems items)
  | .object members => .object (lastMembers (collapseMembers members))
  | other => other

def collapseItems : List Json → List Json
  | [] => []
  | item :: rest => collapse item :: collapseItems rest

def collapseMembers : List (String × Json) → List (String × Json)
  | [] => []
  | (name, member) :: rest => (name, collapse member) :: collapseMembers rest

end

theorem collapseItems_eq (items : List Json) : collapseItems items = items.map collapse := by
  induction items with
  | nil => rfl
  | cons item rest ih => rw [collapseItems, ih, List.map_cons]

theorem collapseMembers_eq (members : List (String × Json)) :
    collapseMembers members = members.map fun m => (m.1, collapse m.2) := by
  induction members with
  | nil => rfl
  | cons m rest ih =>
    obtain ⟨name, member⟩ := m
    rw [collapseMembers, ih, List.map_cons]

theorem map_fst_collapseMembers (members : List (String × Json)) :
    (collapseMembers members).map (·.1) = members.map (·.1) := by
  rw [collapseMembers_eq, List.map_map]
  rfl

theorem isSome_find?_collapseMembers (name : String) (members : List (String × Json)) :
    (find? name (collapseMembers members)).isSome = (find? name members).isSome := by
  rw [Bool.eq_iff_iff, ← not_iff_not]
  simp only [Bool.not_eq_true, Option.isSome_eq_false_iff, Option.isNone_iff_eq_none,
    find?_eq_none_iff, map_fst_collapseMembers]

mutual

/-- A tree without repeated names is left as it is. -/
theorem collapse_of_distinct (r : Json) (h : r.Distinct) : r.collapse = r := by
  cases r with
  | array items => rw [collapse, collapseItems_of_distinct items h]
  | object members =>
    rw [collapse, collapseMembers_of_distinct members h.2, lastMembers_of_nodup h.1]
  | _ => rfl

theorem collapseItems_of_distinct (items : List Json) (h : DistinctItems items) :
    collapseItems items = items := by
  cases items with
  | nil => rfl
  | cons item rest =>
    rw [collapseItems, collapse_of_distinct item h.1, collapseItems_of_distinct rest h.2]

theorem collapseMembers_of_distinct (members : List (String × Json)) (h : DistinctMembers members) :
    collapseMembers members = members := by
  cases members with
  | nil => rfl
  | cons m rest =>
    obtain ⟨name, member⟩ := m
    rw [collapseMembers, collapse_of_distinct member h.1, collapseMembers_of_distinct rest h.2]

end

/-! ### The lenient and the strict reading -/

/-- Trees as they are written, of texts that repeat no name: reading stops at the first that does. -/
def writtenOnce : Build Json :=
  { written with
    name := fun members body => do
      let name ← nameOfBody body
      if (find? name members).isSome then .error (.duplicateName name) else .ok name }

/-- The members of an object that count, from all that have been read, the last one first. -/
def membersThatCount (members : List (String × Json)) : List (String × Json) :=
  lastMembers (collapseMembers members.reverse)

theorem isSome_find?_membersThatCount (name : String) (members : List (String × Json)) :
    (find? name (membersThatCount members)).isSome = (find? name members).isSome := by
  rw [membersThatCount, isSome_find?_lastMembers, isSome_find?_collapseMembers, Bool.eq_iff_iff,
    ← not_iff_not]
  simp only [Bool.not_eq_true, Option.isSome_eq_false_iff, Option.isNone_iff_eq_none,
    find?_eq_none_iff, List.map_reverse, List.mem_reverse]

/-- A word is a tree without names. -/
theorem distinct_of_ofWord? {word : List Char} {r : Json} (h : ofWord? word = some r) :
    r.Distinct := by
  unfold ofWord? at h
  split at h
  · cases h
    trivial
  split at h
  · cases h
    trivial
  split at h
  · cases h
    trivial
  · obtain ⟨n, -, rfl⟩ := Option.map_eq_some_iff.1 h
    trivial

/-- The lenient reading keeps of the members as they are written those that count. -/
theorem carries_lenient : written.Carries lenient collapse membersThatCount where
  word text := by
    change ofWord? text = (ofWord? text).map collapse
    cases hword : ofWord? text with
    | none => rfl
    | some r => rw [Option.map_some, collapse_of_distinct r (distinct_of_ofWord? hword)]
  string body := by
    change (stringOfBody? body).map Json.string =
      ((stringOfBody? body).map Json.string).map collapse
    cases stringOfBody? body <;> rfl
  name _ _ := rfl
  noMembers := rfl
  member members name value := by
    change setMember name (collapse value) (membersThatCount members) =
      membersThatCount ((name, value) :: members)
    rw [membersThatCount, membersThatCount, List.reverse_cons, collapseMembers_eq,
      collapseMembers_eq, List.map_append]
    exact (lastMembers_concat _ (name, collapse value)).symm
  array items := by
    change Json.array (items.map collapse) = collapse (.array items)
    rw [collapse, collapseItems_eq]
  object _ := rfl
  opens _ := rfl

/-- The strict reading stops where a name of a member is one of those before. -/
theorem carries_strict : writtenOnce.Carries strict collapse membersThatCount where
  word := carries_lenient.word
  string := carries_lenient.string
  name members body := by
    change (nameOfBody body >>= fun name =>
        if (find? name (membersThatCount members)).isSome then .error (.duplicateName name)
        else .ok name) =
      (nameOfBody body >>= fun name =>
        if (find? name members).isSome then .error (.duplicateName name) else .ok name)
    simp only [isSome_find?_membersThatCount]
  noMembers := rfl
  member := carries_lenient.member
  array := carries_lenient.array
  object := carries_lenient.object
  opens _ := rfl

theorem readLenient_eq (text : String) :
    readLenient text = (written.read (tokens text.toList)).map collapse := carries_lenient.read _

theorem readStrict_eq (text : String) :
    readStrict text = (writtenOnce.read (tokens text.toList)).map collapse := carries_strict.read _

end TypedStore.Json
