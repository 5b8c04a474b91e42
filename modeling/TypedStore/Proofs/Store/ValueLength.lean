/-
  TypedStore/Proofs/Store/ValueLength.lean
  ========================================
  **The length that a store bounds is the length of the payload.**

  A store never writes the payload of a value by itself. It takes the text of the whole node, which it
  is going to store anyway, and subtracts the length of what stands around the payload, counted by hand
  from the tag. That this is right rests on two facts about the text: no tag has a character that is
  escaped (`Kind.writeString_tag`), so a node is its payload in a frame that depends on the kind alone
  (`Json.write_node`); and the length in bytes of texts side by side is the sum of theirs.

  So nothing is cut off when the frame is subtracted (`Value.length_encoding`), whatever the value is: the
  floats in it need not be finite, and it may be nested as deep as it will. Storing a value then fails for
  its length exactly if the payload is too long (`length_is_that_of_payload`).
-/
import TypedStore.Proofs.Store.Checks

namespace TypedStore

/-! ### The text of a node -/

/-- Tags are written as they are. -/
theorem Kind.writeString_tag (kind : Kind) :
    Json.writeString kind.tag = '"' :: kind.tag.toList ++ ['"'] := by
  cases kind <;> decide +kernel

theorem Json.write_node (kind : Kind) (payload : Json) :
    write (.node kind payload) =
      "\x7b\"t\":\"".toList ++ kind.tag.toList ++ "\",\"v\":".toList ++ write payload ++ ['\x7d'] := by
  have ht : writeString "t" = "\"t\"".toList := by decide +kernel
  have hv : writeString "v" = "\"v\"".toList := by decide +kernel
  simp only [node, write, writeMembers, Kind.writeString_tag, ht, hv]
  simp

namespace Value

/-! ### The length of the frame -/

/-- How many bytes stand around the payload in the text of a node. -/
def frameLength (v : Value) : Nat := 6 + (Utf8.encode v.kind.tag).length + 6 + 1

/-- The text of a node is its payload in the frame. -/
theorem length_encoding (v : Value) :
    (Utf8.encode v.encoding).length =
      v.frameLength + (Utf8.encode v.encodePayload.text).length := by
  have hbefore : (Utf8.encodeChars "\x7b\"t\":\"".toList).length = 6 := by decide +kernel
  have hbetween : (Utf8.encodeChars "\",\"v\":".toList).length = 6 := by decide +kernel
  have hafter : (Utf8.encodeChars ['\x7d']).length = 1 := by decide +kernel
  simp only [encoding, encode, Json.text, Utf8.encode, String.toList_ofList, Json.write_node,
    Utf8.encodeChars_append, List.length_append, hbefore, hbetween, hafter, frameLength]
  omega

/-! ### The length of a value -/

/-- The length of a string is that of the string, the length of any other value that of the text of its
    payload. -/
def payloadLength : Value → Nat
  | .str s => (Utf8.encode s).length
  | v => (Utf8.encode v.encodePayload.text).length

theorem storedLength_encoding (v : Value) : v.storedLength v.encoding = v.payloadLength := by
  have hlength := v.length_encoding
  cases v with
  | str s => rfl
  | _ => exact Nat.sub_eq_of_eq_add' hlength

theorem length_eq (v : Value) : v.length = v.payloadLength := v.storedLength_encoding

end Value

namespace Store

variable {σ : Type} {store : Store σ} {key : String} {value : Value} {s : Journaled σ}

/-! ### Values that are too long -/

/-- A value in the domain, under a key that could be stored, passes the checks that come before that of
    its length. -/
theorem passes_before_length (hkey : isAdmissible store.limits key)
    (hdomain : value.checkDomain = .ok ()) :
    ∀ check ∈ [PutCheck.characters, .keyLength] ++ [.depth, .floats], ∀ fault,
      ¬ store.Refuses key value s check fault := by
  have hpair : Settles (store.Refuses key value s) [.characters, .keyLength]
      ((checkKey store.limits key).mapError .key) := settles_checkKey
  have hvalue : Settles (store.Refuses key value s) [.depth, .floats]
      (value.checkDomain.mapError .value) := settles_checkDomain
  rw [isAdmissible_iff_checkKey.1 hkey] at hpair
  rw [hdomain] at hvalue
  exact List.forall_mem_append.2 ⟨hpair, hvalue⟩

/-- No other check refuses as the length of the value does. -/
theorem Refuses.tooLong {check : PutCheck} {actual max : Nat}
    (h : store.Refuses key value s check (.tooLong actual max)) :
    store.limits.maxValueBytes < value.payloadLength ∧ actual = value.payloadLength ∧
      max = store.limits.maxValueBytes := by
  cases h with
  | valueLength hlong => exact ⟨value.length_eq ▸ hlong, value.length_eq, rfl⟩

/-- The length of a value, be it taken of the value or of the text of its node, is that of the string or
    of the payload's text, and the text of the node is no shorter than the frame that is subtracted. A
    value in the domain, under a key that could be stored, is refused for its length exactly if it is
    too long in this sense, and the fault tells how long it is. -/
theorem length_is_that_of_payload (store : Store σ) (key : String) (value : Value)
    (s : Journaled (Session σ)) :
    (value.length = value.payloadLength ∧ value.storedLength value.encoding = value.payloadLength ∧
      value.frameLength ≤ (Utf8.encode value.encoding).length) ∧
    (isAdmissible store.limits key → value.checkDomain = .ok () → ∀ actual max,
      (store.put key value).outcome s = .error (.tooLong actual max) ↔
        store.limits.maxValueBytes < value.payloadLength ∧ actual = value.payloadLength ∧
          max = store.limits.maxValueBytes) := by
  have hframe : value.frameLength ≤ (Utf8.encode value.encoding).length :=
    value.length_encoding ▸ Nat.le_add_right _ _
  refine ⟨⟨value.length_eq, value.storedLength_encoding, hframe⟩, ?_⟩
  intro hkey hdomain actual max
  have hput : (store.put key value).outcome s = .error (.tooLong actual max) ↔
      FirstRefusal (store.Refuses key value (underneath s)) PutCheck.all (.tooLong actual max) :=
    (store.settles_put key value s).eq_error_iff fun _ _ _ => Refuses.unique
  rw [hput]
  constructor
  · intro hfirst
    obtain ⟨_, _, _, -, -, hrefuses⟩ := hfirst.exists_split
    exact hrefuses.tooLong
  · rintro ⟨hlong, rfl, rfl⟩
    have hrefuses : store.Refuses key value (underneath s) .valueLength
        (.tooLong value.length store.limits.maxValueBytes) := .valueLength (value.length_eq ▸ hlong)
    rw [value.length_eq] at hrefuses
    have hpair : FirstRefusal (store.Refuses key value (underneath s))
        (([.characters, .keyLength] ++ [.depth, .floats]) ++ [.valueLength])
        (.tooLong value.payloadLength store.limits.maxValueBytes) :=
      .append_right (passes_before_length hkey hdomain) (.inl hrefuses)
    exact hpair.append_left

/-- A list that takes one byte more than there is room for: its text has an escape, and letters of two
    bytes. -/
theorem length_is_that_of_payload_list :
    let s : Journaled (Session Memory) := ⟨⟨.empty, .empty⟩, []⟩
    let store : Store Memory :=
      { Store.ephemeral Memory.medium with limits := ⟨4, 72⟩ }
    let value : Value := .arr [.str "ключ\n", .obj [("", .null)]]
    (isAdmissible store.limits "list" ∧ value.checkDomain = .ok ()) ∧
      store.limits.maxValueBytes < value.payloadLength ∧ value.payloadLength = 73 ∧
      (store.put "list" value).outcome s = .error (.tooLong 73 72) := by
  intro s store value
  have hkey : isAdmissible store.limits "list" := by decide +kernel
  have hdomain : value.checkDomain = .ok () := by decide +kernel
  have hlength : value.payloadLength = 73 := by decide +kernel
  have hlong : store.limits.maxValueBytes < value.payloadLength := by
    rw [hlength]
    decide
  have hput := (length_is_that_of_payload store "list" value s).2 hkey hdomain 73 72
  exact ⟨⟨hkey, hdomain⟩, hlong, hlength, hput.2 ⟨hlong, hlength.symm, rfl⟩⟩

end Store

end TypedStore
