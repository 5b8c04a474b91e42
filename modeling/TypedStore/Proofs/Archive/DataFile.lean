/-
  TypedStore/Proofs/Archive/DataFile.lean
  =======================================
  **The data file loses nothing.**

  The entries of a store are written as an object of their texts. Reading gives every one of them back,
  character for character, whatever the texts are as values: all that is asked of a text is that the
  grammar derives it (`FileSet.data_file_lossless`). As the entries are written in the order of their
  names, the bytes depend on the map alone and not on how it came about.
-/
import TypedStore.Proofs.Archive.Loading
import TypedStore.Proofs.Codec.ObjectText

namespace TypedStore

open Json (AllBlank IsPhrase RawObject RawText)

/-- The value that counts for a key, if a list writes one. -/
def SortedMap.last? {α : Type} (entries : List (String × α)) (key : String) : Option α :=
  (entries.reverse.find? (·.1 = key)).map (·.2)

theorem SortedMap.ofList_eq_iff {α : Type} {entries other : List (String × α)} :
    ofList entries = ofList other ↔ ∀ key, last? entries key = last? other key := by
  have hget : ∀ (l : List (String × α)) (key : String), (ofList l).get? key = last? l key :=
    get?_ofList
  constructor
  · intro h key
    rw [← hget, ← hget, h]
  · intro h
    apply ext
    intro key
    rw [hget, hget, h key]

theorem Json.RawObject.toBytes_inj {entries other : RawObject} :
    entries.toBytes = other.toBytes ↔ entries = other := by
  constructor
  · intro h
    have hread := ofBytes?_toBytes entries
    rw [h, ofBytes?_toBytes] at hread
    exact (Option.some.inj hread).symm
  · exact congrArg _

namespace FileSet

/-- Bytes that are written for some entries are taken for these entries, if their checksum is right. -/
theorem parseVerified_toBytes (entries : RawObject) (data checksum : Path) (disk : Disk) :
    parseVerified entries.toBytes data checksum disk =
      (verify entries.toBytes data checksum disk).map fun _ => entries := by
  rw [parseVerified, parse_toBytes]
  cases verify entries.toBytes data checksum disk <;> rfl

/-- A raw text is any value of the grammar, without the blanks around it; a map of raw texts is read
    from the bytes that are written for it, once their checksum has been found right; and two maps are
    the same if and only if these bytes are, which for maps that are built entry by entry is the case if
    and only if the same text counts for each name. -/
theorem data_file_lossless :
    (∀ text, (∃ raw : RawText, raw.chars = text) ↔ IsPhrase .value text) ∧
      (∀ text raw, RawText.ofChars? text = some raw ↔
        ∃ before after, AllBlank before ∧ AllBlank after ∧ text = before ++ (raw.chars ++ after)) ∧
      (∀ (entries : RawObject) data checksum disk,
        parse entries.toBytes = .ok entries ∧
          parseVerified entries.toBytes data checksum disk =
            (verify entries.toBytes data checksum disk).map fun _ => entries) ∧
      (∀ entries other : RawObject, entries = other ↔ entries.toBytes = other.toBytes) ∧
      ∀ written other : List (String × RawText),
        RawObject.toBytes (.ofList written) = RawObject.toBytes (.ofList other) ↔
          ∀ name, SortedMap.last? written name = SortedMap.last? other name := by
  refine ⟨fun _ => Json.exists_rawText_iff, fun _ _ => Json.ofChars?_eq_some_iff,
    fun entries data checksum disk =>
      ⟨parse_toBytes entries, parseVerified_toBytes entries data checksum disk⟩,
    fun _ _ => RawObject.toBytes_inj.symm, fun written other => ?_⟩
  rw [← SortedMap.ofList_eq_iff, RawObject.toBytes_inj]

example : (RawText.ofChars? " \x7b\"a\" : 1e99999,\"a\":[ ]\x7d\n".toList).map (·.chars) =
    some "\x7b\"a\" : 1e99999,\"a\":[ ]\x7d".toList := by decide +kernel

example : (RawText.ofChars? (List.replicate 200 '[' ++ List.replicate 200 ']')).isSome := by
  decide +kernel

end FileSet

end TypedStore
