/-
  TypedStore/Proofs/Archive/Slots.lean
  ====================================
  **The files of a store and their places.**

  Every file that a commit touches is a `Slot`: the data or the checksum of a generation, under its
  own or its temporary name. Different slots have different names (`Slot.name_inj`), so they are
  different places of one directory, and none is below another (`slotPlace_prefix_iff`).
-/
import TypedStore.Archive.Commit
import TypedStore.Proofs.Codec.NumberText
import TypedStore.Proofs.Disk.Directories

namespace TypedStore.FileSet

/-- What a file of a generation holds. -/
inductive Part where
  | data
  | checksum
deriving DecidableEq

/-- A file of a generation, under its own or its temporary name. -/
structure Slot where
  part : Part
  generation : Nat
  draft : Bool
deriving DecidableEq

namespace Slot

/-- What comes after the number of the generation in the name of a slot. -/
def ending (part : Part) (draft : Bool) : String :=
  match part, draft with
  | .data, false => ".json"
  | .data, true => ".json.tmp"
  | .checksum, false => ".hash"
  | .checksum, true => ".hash.tmp"

/-- The name of a slot of the store of that number. -/
def name (id : Nat) (slot : Slot) : String :=
  "kvs_" ++ id.repr ++ "_" ++ (slot.generation.repr ++ ending slot.part slot.draft)

theorem ending_inj {part part' : Part} {draft draft' : Bool}
    (h : ending part draft = ending part' draft') : part = part' ∧ draft = draft' := by
  revert h
  cases part <;> cases draft <;> cases part' <;> cases draft' <;> decide +kernel

/-- Every ending begins with a character that is no digit. -/
theorem ending_head (part : Part) (draft : Bool) :
    ∀ c ∈ (ending part draft).toList.head?, c.isDigit = false := by
  have hdot : (ending part draft).toList.head? = some '.' := by
    cases part <;> cases draft <;> decide +kernel
  intro c hc
  rw [hdot] at hc
  obtain rfl : '.' = c := by simpa using hc
  decide

theorem toDigits_inj {m n : Nat} (h : Nat.toDigits 10 m = Nat.toDigits 10 n) : m = n := by
  have hvalue := congrArg (fun digits => Nat.ofDigitChars 10 digits 0) h
  simpa using hvalue

/-- Digits end at the first character that is none. -/
theorem digits_append_inj {m n : Nat} {a b : List Char}
    (ha : ∀ c ∈ a.head?, c.isDigit = false) (hb : ∀ c ∈ b.head?, c.isDigit = false)
    (h : Nat.toDigits 10 m ++ a = Nat.toDigits 10 n ++ b) : m = n ∧ a = b := by
  obtain ⟨htakeM, hdropM⟩ :=
    Json.NumberText.takeWhile_run (Json.isDigit_of_mem_toDigits (n := m)) ha
  obtain ⟨htakeN, hdropN⟩ :=
    Json.NumberText.takeWhile_run (Json.isDigit_of_mem_toDigits (n := n)) hb
  rw [h] at htakeM hdropM
  exact ⟨toDigits_inj (htakeM.symm.trans htakeN), hdropM.symm.trans hdropN⟩

/-- Different slots have different names. -/
theorem name_inj {id : Nat} {slot other : Slot} (h : slot.name id = other.name id) :
    slot = other := by
  obtain ⟨part, generation, draft⟩ := slot
  obtain ⟨part', generation', draft'⟩ := other
  have hchars := congrArg String.toList ((String.append_right_inj _).1 h)
  rw [String.toList_append, String.toList_append, Nat.toList_repr, Nat.toList_repr] at hchars
  obtain ⟨rfl, hending⟩ :=
    digits_append_inj (ending_head part draft) (ending_head part' draft') hchars
  obtain ⟨rfl, rfl⟩ := ending_inj (String.toList_injective hending)
  rfl

theorem head_name (id : Nat) (slot : Slot) : (slot.name id).toList.head? = some 'k' := by
  rw [name, String.append_assoc, String.append_assoc, String.toList_append]
  rfl

/-- The names of slots are names of files. -/
theorem isName (id : Nat) (slot : Slot) : Path.IsName (slot.name id) := by
  have hhead := head_name id slot
  have hdigits : ∀ n : Nat, '\x00' ∉ Nat.toDigits 10 n := by
    intro n hn
    exact absurd (Json.isDigit_of_mem_toDigits _ hn) (by decide)
  have hending : '\x00' ∉ (ending slot.part slot.draft).toList := by
    cases slot.part <;> cases slot.draft <;> decide +kernel
  constructor
  · intro h
    rw [h] at hhead
    cases hhead
  · intro h
    rw [h] at hhead
    exact absurd hhead (by decide)
  · intro h
    rw [h] at hhead
    exact absurd hhead (by decide)
  · simp only [name, String.toList_append, Nat.toList_repr, List.mem_append, not_or]
    exact ⟨⟨⟨by decide +kernel, hdigits id⟩, by decide +kernel⟩, hdigits _, hending⟩

/-- Temporary names are the longest, and data and checksum have names of one length. -/
theorem size_name_le {id generation : Nat} {part part' : Part} {draft draft' : Bool}
    (h : draft' = true → draft = true) :
    (name id ⟨part', generation, draft'⟩).utf8ByteSize ≤
      (name id ⟨part, generation, draft⟩).utf8ByteSize := by
  have hending : (ending part' draft').utf8ByteSize ≤ (ending part draft).utf8ByteSize := by
    revert h
    cases part <;> cases part' <;> cases draft <;> cases draft' <;> decide +kernel
  simp only [name, String.utf8ByteSize_append]
  omega

end Slot

variable (files : FileSet) {disk : Disk}

/-- The path of a slot. -/
def slotPath (slot : Slot) : Path := files.dir.child (slot.name files.id)

/-- The place of a slot. -/
def slotPlace (slot : Slot) : Place := files.dir.place ++ [slot.name files.id]

theorem place_slotPath (slot : Slot) : (files.slotPath slot).place = files.slotPlace slot :=
  Path.place_child files.dir (slot.isName files.id)

theorem data_eq (generation : Nat) :
    files.data generation = files.slotPath ⟨.data, generation, false⟩ := rfl

theorem checksum_eq (generation : Nat) :
    files.checksum generation = files.slotPath ⟨.checksum, generation, false⟩ := rfl

/-- The temporary name of a slot is a slot too. -/
theorem temporary_slotPath (part : Part) (generation : Nat) :
    temporary (files.slotPath ⟨part, generation, false⟩) =
      files.slotPath ⟨part, generation, true⟩ := by
  have hending : Slot.ending part false ++ ".tmp" = Slot.ending part true := by
    cases part <;> decide +kernel
  have hname : Slot.name files.id ⟨part, generation, false⟩ ++ ".tmp" =
      Slot.name files.id ⟨part, generation, true⟩ := by
    simp only [Slot.name, String.append_assoc, hending]
  rw [temporary, Path.suffixed, slotPath, Path.child_eq, List.dropLast_concat,
    List.getLastD_concat, hname]
  rfl

/-! ### Places -/

@[simp]
theorem slotPlace_inj {slot other : Slot} :
    files.slotPlace slot = files.slotPlace other ↔ slot = other := by
  constructor
  · intro h
    exact Slot.name_inj (List.singleton_inj.1 (List.append_cancel_left h))
  · rintro rfl
    rfl

theorem slotPlace_ne_root (slot : Slot) : files.slotPlace slot ≠ [] :=
  List.concat_ne_nil _ _

/-- No slot is inside another. -/
theorem slotPlace_prefix_iff {slot other : Slot} :
    files.slotPlace slot <+: files.slotPlace other ↔ slot = other := by
  constructor
  · intro h
    have hlength : (files.slotPlace slot).length = (files.slotPlace other).length := by
      simp [slotPlace]
    exact (files.slotPlace_inj).1 (h.eq_of_length hlength)
  · rintro rfl
    exact List.prefix_rfl

/-! ### Reaching -/

variable {files}

/-- With one file of a generation the others are reached, except that temporary names are longer. -/
theorem Reaches.part {part part' : Part} {generation : Nat} {draft draft' : Bool}
    (h : disk.Reaches (files.slotPath ⟨part, generation, draft⟩))
    (hdraft : draft' = true → draft = true) :
    disk.Reaches (files.slotPath ⟨part', generation, draft'⟩) :=
  Disk.Reaches.sibling h (Slot.isName _ _).no_null (Slot.size_name_le hdraft)

end TypedStore.FileSet
