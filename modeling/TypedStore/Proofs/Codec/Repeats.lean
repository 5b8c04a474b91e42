/-
  TypedStore/Proofs/Codec/Repeats.lean
  ====================================
  **The strict reading is the lenient one of texts that repeat no name.**

  A reading as written that stops at a repeated name goes the same steps as one that does not, as long
  as what has been read is without repeated names (`writtenOnce_step_iff`), and what is read after a
  repeated name still repeats it (`distinct_of_run`). So the one reads a text just if the other does and
  the tree repeats no name (`writtenOnce_run_iff`).
-/
import TypedStore.Proofs.Codec.Builds
import TypedStore.Tagged.Decoding

namespace TypedStore.Json

/-! ### Repeated names in what has been read -/

theorem distinctItems_iff {items : List Json} :
    DistinctItems items ↔ ∀ item ∈ items, item.Distinct := by
  induction items with
  | nil => exact iff_of_true trivial (List.forall_mem_nil _)
  | cons item rest ih => rw [DistinctItems, ih, List.forall_mem_cons]

theorem distinctMembers_iff {members : List (String × Json)} :
    DistinctMembers members ↔ ∀ m ∈ members, m.2.Distinct := by
  induction members with
  | nil => exact iff_of_true trivial (List.forall_mem_nil _)
  | cons m rest ih => rw [DistinctMembers, ih, List.forall_mem_cons]

/-- No name is repeated among the members of an object that have been read, nor within them. -/
def DistinctRead (members : List (String × Json)) : Prop :=
  (members.map (·.1)).Nodup ∧ DistinctMembers members

/-- No name is repeated in an open container, the name of the member that is read included. -/
def Frame.Distinct : Frame Json → Prop
  | .array items => DistinctItems items
  | .object members name => name ∉ members.map (·.1) ∧ DistinctRead members

/-- No name is repeated in what has been read so far. -/
def Reading.Distinct : Reading Json → Prop
  | .value stack | .firstItem stack | .firstName stack => ∀ frame ∈ stack, frame.Distinct
  | .nextName members stack => DistinctRead members ∧ ∀ frame ∈ stack, frame.Distinct
  | .colon members name stack =>
    (name ∉ members.map (·.1) ∧ DistinctRead members) ∧ ∀ frame ∈ stack, frame.Distinct
  | .done tree stack => tree.Distinct ∧ ∀ frame ∈ stack, frame.Distinct

/-- The name that has just been read, if any, is not one of those before. -/
def Reading.Fresh : Reading Json → Prop
  | .colon members name _ => name ∉ members.map (·.1)
  | _ => True

theorem distinct_reverse_items {items : List Json} :
    (Json.array items.reverse).Distinct ↔ DistinctItems items := by
  rw [Distinct, distinctItems_iff, distinctItems_iff]
  simp only [List.mem_reverse]

theorem distinct_reverse_members {members : List (String × Json)} :
    (Json.object members.reverse).Distinct ↔ DistinctRead members := by
  rw [Distinct, DistinctRead, distinctMembers_iff, distinctMembers_iff, List.map_reverse,
    List.nodup_reverse]
  simp only [List.mem_reverse]

theorem distinctRead_cons {members : List (String × Json)} {name : String} {value : Json} :
    DistinctRead ((name, value) :: members) ↔
      value.Distinct ∧ name ∉ members.map (·.1) ∧ DistinctRead members := by
  rw [DistinctRead, DistinctRead, DistinctMembers, List.map_cons, List.nodup_cons]
  tauto

/-! ### One step -/

section Steps

variable {stack : List (Frame Json)} {members : List (String × Json)} {token : Token}
  {r next last : Reading Json}

theorem distinct_beginValue (h : written.beginValue stack token = .ok next) :
    next.Fresh ∧ (next.Distinct ↔ ∀ frame ∈ stack, frame.Distinct) := by
  cases token with
  | word word =>
    change ((ofWord? word).map (Reading.done · stack)).elim _ _ = _ at h
    cases hword : ofWord? word with
    | none => simp [hword] at h
    | some value =>
      obtain rfl : Reading.done value stack = next := by simpa [hword] using h
      exact ⟨trivial, and_iff_right (distinct_of_ofWord? hword)⟩
  | string body =>
    change (((stringOfBody? body).map Json.string).map (Reading.done · stack)).elim _ _ = _ at h
    cases hbody : stringOfBody? body with
    | none => simp [hbody] at h
    | some s =>
      obtain rfl : Reading.done (.string s) stack = next := by simpa [hbody] using h
      exact ⟨trivial, and_iff_right trivial⟩
  | beginArray =>
    simp only [Build.beginValue] at h
    split at h
    · cases h
      exact ⟨trivial, Iff.rfl⟩
    · cases h
  | beginObject =>
    simp only [Build.beginValue] at h
    split at h
    · cases h
      exact ⟨trivial, Iff.rfl⟩
    · cases h
  | _ => cases h

theorem distinct_beginMember (h : written.beginMember members stack token = .ok next) :
    next.Distinct ↔ next.Fresh ∧ DistinctRead members ∧ ∀ frame ∈ stack, frame.Distinct := by
  cases token with
  | string body =>
    obtain ⟨name, -, rfl⟩ := Except.map_eq_ok_iff.1 h
    exact and_assoc
  | _ => cases h

theorem distinct_afterValue {value : Json} (h : written.afterValue value stack token = .ok next) :
    next.Fresh ∧ (next.Distinct ↔ value.Distinct ∧ ∀ frame ∈ stack, frame.Distinct) := by
  cases stack with
  | nil => cases h
  | cons frame stack =>
    rw [List.forall_mem_cons]
    cases frame with
    | array items =>
      cases token with
      | comma =>
        cases h
        refine ⟨trivial, ?_⟩
        rw [Reading.Distinct, List.forall_mem_cons]
        exact and_assoc
      | endArray =>
        cases h
        refine ⟨trivial, ?_⟩
        change (Json.array (value :: items).reverse).Distinct ∧ _ ↔ _
        rw [distinct_reverse_items]
        exact and_assoc
      | _ => cases h
    | object members name =>
      cases token with
      | comma =>
        cases h
        refine ⟨trivial, ?_⟩
        change DistinctRead ((name, value) :: members) ∧ _ ↔ _
        rw [distinctRead_cons]
        exact and_assoc
      | endObject =>
        cases h
        refine ⟨trivial, ?_⟩
        change (Json.object ((name, value) :: members).reverse).Distinct ∧ _ ↔ _
        rw [distinct_reverse_members, distinctRead_cons]
        exact and_assoc
      | _ => cases h

/-- A step repeats no name if it does not read one that is there, and none was repeated before. -/
theorem distinct_step (h : written.step r token = .ok next) :
    next.Distinct ↔ next.Fresh ∧ r.Distinct := by
  cases r with
  | value stack =>
    obtain ⟨hfresh, hiff⟩ := distinct_beginValue h
    exact hiff.trans (and_iff_right hfresh).symm
  | firstItem stack =>
    by_cases hend : token = .endArray
    · subst hend
      cases h
      rfl
    · rw [Build.step_firstItem _ hend] at h
      obtain ⟨hfresh, hiff⟩ := distinct_beginValue h
      rw [hiff, List.forall_mem_cons]
      exact ⟨fun h => ⟨hfresh, h.2⟩, fun h => ⟨trivial, h.2⟩⟩
  | firstName stack =>
    by_cases hend : token = .endObject
    · subst hend
      cases h
      exact ⟨fun h => ⟨trivial, h.2⟩, fun h => ⟨⟨List.nodup_nil, trivial⟩, h.2⟩⟩
    · rw [Build.step_firstName _ hend] at h
      rw [distinct_beginMember h]
      exact ⟨fun h => ⟨h.1, h.2.2⟩, fun h => ⟨h.1, ⟨List.nodup_nil, trivial⟩, h.2⟩⟩
  | nextName members stack => exact distinct_beginMember h
  | colon members name stack =>
    cases token with
    | colon =>
      cases h
      rw [Reading.Distinct, List.forall_mem_cons]
      exact (and_iff_right trivial).symm
    | _ => cases h
  | done value stack =>
    obtain ⟨hfresh, hiff⟩ := distinct_afterValue h
    exact hiff.trans (and_iff_right hfresh).symm

theorem writtenOnce_name_iff {body : List Char} {name : String} :
    writtenOnce.name members body = .ok name ↔
      nameOfBody body = .ok name ∧ name ∉ members.map (·.1) := by
  change (nameOfBody body >>= _) = _ ↔ _
  rw [Except.bind_eq_ok_iff]
  constructor
  · rintro ⟨name', hname, hrest⟩
    split at hrest
    · cases hrest
    · next hnew =>
      cases hrest
      rw [Option.not_isSome_iff_eq_none, find?_eq_none_iff] at hnew
      exact ⟨hname, hnew⟩
  · rintro ⟨hname, hnew⟩
    refine ⟨name, hname, if_neg ?_⟩
    rw [Option.not_isSome_iff_eq_none, find?_eq_none_iff]
    exact hnew

theorem writtenOnce_beginMember_iff :
    writtenOnce.beginMember members stack token = .ok next ↔
      written.beginMember members stack token = .ok next ∧ next.Fresh := by
  cases token with
  | string body =>
    change (writtenOnce.name members body).map (Reading.colon members · stack) = .ok next ↔
      (nameOfBody body).map (Reading.colon members · stack) = .ok next ∧ next.Fresh
    rw [Except.map_eq_ok_iff, Except.map_eq_ok_iff]
    constructor
    · rintro ⟨name, hname, rfl⟩
      obtain ⟨hname, hnew⟩ := writtenOnce_name_iff.1 hname
      exact ⟨⟨name, hname, rfl⟩, hnew⟩
    · rintro ⟨⟨name, hname, rfl⟩, hnew⟩
      exact ⟨name, writtenOnce_name_iff.2 ⟨hname, hnew⟩, rfl⟩
  | _ => exact iff_of_false nofun nofun

/-- Stopping at a repeated name, the reading goes only the steps that do not read one. -/
theorem writtenOnce_step_iff :
    writtenOnce.step r token = .ok next ↔ written.step r token = .ok next ∧ next.Fresh := by
  have hvalue : ∀ {stack}, writtenOnce.beginValue stack token = .ok next ↔
      written.beginValue stack token = .ok next ∧ next.Fresh :=
    fun {_} => ⟨fun h => ⟨h, (distinct_beginValue h).1⟩, And.left⟩
  cases r with
  | value stack => exact hvalue
  | firstItem stack =>
    by_cases hend : token = .endArray
    · subst hend
      exact ⟨fun h => ⟨h, by cases h; trivial⟩, And.left⟩
    · rw [Build.step_firstItem _ hend, Build.step_firstItem _ hend]
      exact hvalue
  | firstName stack =>
    by_cases hend : token = .endObject
    · subst hend
      exact ⟨fun h => ⟨h, by cases h; trivial⟩, And.left⟩
    · rw [Build.step_firstName _ hend, Build.step_firstName _ hend]
      exact writtenOnce_beginMember_iff
  | nextName members stack => exact writtenOnce_beginMember_iff
  | colon members name stack =>
    cases token with
    | colon => exact ⟨fun h => ⟨h, by cases h; trivial⟩, And.left⟩
    | _ => exact iff_of_false nofun nofun
  | done value stack => exact ⟨fun h => ⟨h, (distinct_afterValue h).1⟩, And.left⟩

end Steps

/-! ### Whole readings -/

section Runs

variable {r last : Reading Json} {ts : List Token} {w : Json}

/-- What is read after a repeated name still repeats it. -/
theorem distinct_of_run (h : written.run r ts = .ok last) (hlast : last.Distinct) : r.Distinct := by
  induction ts generalizing r with
  | nil =>
    cases h
    exact hlast
  | cons token ts ih =>
    rw [Build.run] at h
    cases hstep : written.step r token with
    | error fault => simp [hstep] at h
    | ok next =>
      rw [hstep] at h
      exact ((distinct_step hstep).1 (ih h)).2

theorem writtenOnce_run_iff (hr : r.Distinct) :
    writtenOnce.run r ts = .ok last ↔ written.run r ts = .ok last ∧ last.Distinct := by
  induction ts generalizing r with
  | nil =>
    constructor
    · intro h
      cases h
      exact ⟨rfl, hr⟩
    · exact And.left
  | cons token ts ih =>
    rw [Build.run, Build.run]
    constructor
    · intro h
      cases hstep : writtenOnce.step r token with
      | error fault => simp [hstep] at h
      | ok next =>
        rw [hstep] at h
        obtain ⟨hwritten, hfresh⟩ := writtenOnce_step_iff.1 hstep
        rw [hwritten]
        exact (ih ((distinct_step hwritten).2 ⟨hfresh, hr⟩)).1 h
    · rintro ⟨h, hlast⟩
      cases hstep : written.step r token with
      | error fault => simp [hstep] at h
      | ok next =>
        rw [hstep] at h
        have hnext := distinct_of_run h hlast
        rw [writtenOnce_step_iff.2 ⟨hstep, ((distinct_step hstep).1 hnext).1⟩]
        exact (ih hnext).2 ⟨h, hlast⟩

theorem Build.finish_eq_ok_iff {α : Type} {r : Reading α} {a : α} :
    Build.finish r = .ok a ↔ r = .done a [] := by
  constructor
  · intro h
    cases r with
    | done value stack =>
      cases stack with
      | nil =>
        cases h
        rfl
      | cons frame stack => cases h
    | _ => cases h
  · rintro rfl
    rfl

theorem Build.read_eq_ok_iff {α : Type} {b : Build α} {a : α} :
    b.read ts = .ok a ↔ b.run (.value []) ts = .ok (.done a []) := by
  change (b.run (.value []) ts >>= Build.finish) = .ok a ↔ _
  rw [Except.bind_eq_ok_iff]
  simp only [Build.finish_eq_ok_iff, exists_eq_right]

/-- The tree is read with each name once just if it is read as it is written and repeats no name. -/
theorem writtenOnce_read_iff :
    writtenOnce.read ts = .ok w ↔ written.read ts = .ok w ∧ w.Distinct := by
  have hstart : (Reading.value []).Distinct := List.forall_mem_nil _
  rw [Build.read_eq_ok_iff, Build.read_eq_ok_iff, writtenOnce_run_iff hstart]
  exact and_congr_right fun _ => and_iff_left (List.forall_mem_nil _)

end Runs

/-- The text repeats no member name, at whatever depth: its tree as it is written does not. -/
def RepeatsNoName (text : String) : Prop :=
  ∃ w, written.read (tokens text.toList) = .ok w ∧ w.Distinct

/-- What the strict reading accepts is what the lenient one does, of texts that repeat no name. -/
theorem readStrict_eq_ok_iff {text : String} {tree : Json} :
    readStrict text = .ok tree ↔ readLenient text = .ok tree ∧ RepeatsNoName text := by
  rw [readStrict_eq, readLenient_eq, Except.map_eq_ok_iff, Except.map_eq_ok_iff]
  constructor
  · rintro ⟨w, hw, rfl⟩
    obtain ⟨hwritten, hdistinct⟩ := writtenOnce_read_iff.1 hw
    exact ⟨⟨w, hwritten, rfl⟩, w, hwritten, hdistinct⟩
  · rintro ⟨⟨w, hw, rfl⟩, w', hw', hdistinct⟩
    cases hw.symm.trans hw'
    exact ⟨w, writtenOnce_read_iff.2 ⟨hw, hdistinct⟩, rfl⟩

/-- What is read has the members and the numbers of the text, in the order of the text. -/
theorem written_of_readStrict {text : String} {tree : Json} (h : readStrict text = .ok tree) :
    written.read (tokens text.toList) = .ok tree := by
  rw [readStrict_eq, Except.map_eq_ok_iff] at h
  obtain ⟨w, hw, rfl⟩ := h
  obtain ⟨hwritten, hdistinct⟩ := writtenOnce_read_iff.1 hw
  rwa [collapse_of_distinct w hdistinct]

/-! ### Values held as text -/

mutual

/-- No object within the tree begins with this name. -/
def Unmarked (reserved : String) : Json → Prop
  | .array items => UnmarkedItems reserved items
  | .object members => (∀ m ∈ members.head?, m.1 ≠ reserved) ∧ UnmarkedMembers reserved members
  | _ => True

def UnmarkedItems (reserved : String) : List Json → Prop
  | [] => True
  | item :: rest => Unmarked reserved item ∧ UnmarkedItems reserved rest

def UnmarkedMembers (reserved : String) : List (String × Json) → Prop
  | [] => True
  | (_, member) :: rest => Unmarked reserved member ∧ UnmarkedMembers reserved rest

end

section Embedded

variable {reserved : String} {read : String → Except Fault Json}

theorem heldText?_eq_none {members : List (String × Json)}
    (h : ∀ m ∈ members.head?, m.1 ≠ reserved) : heldText? reserved members = none := by
  cases members with
  | nil => rfl
  | cons m rest => exact if_neg (h m rfl)

mutual

/-- Where no object begins with the reserved name, no text is held. -/
theorem expand_of_unmarked (r : Json) (h : r.Unmarked reserved) :
    expand reserved read r = .ok r.collapse := by
  cases r with
  | array items =>
    rw [expand, expandItems_of_unmarked items h]
    rfl
  | object members =>
    rw [expand, heldText?_eq_none h.1, expandMembers_of_unmarked members h.2]
    rfl
  | _ => rfl

theorem expandItems_of_unmarked (items : List Json) (h : UnmarkedItems reserved items) :
    expandItems reserved read items = .ok (collapseItems items) := by
  cases items with
  | nil => rfl
  | cons item rest =>
    rw [expandItems, expand_of_unmarked item h.1, expandItems_of_unmarked rest h.2]
    rfl

theorem expandMembers_of_unmarked (members : List (String × Json))
    (h : UnmarkedMembers reserved members) :
    expandMembers reserved read members = .ok (collapseMembers members) := by
  cases members with
  | nil => rfl
  | cons m rest =>
    obtain ⟨name, member⟩ := m
    rw [expandMembers, expand_of_unmarked member h.1, expandMembers_of_unmarked rest h.2]
    rfl

end

/-- No object of the text begins with the reserved name. -/
def MarksNothing (reserved text : String) : Prop :=
  ∀ w, written.read (tokens text.toList) = .ok w → w.Unmarked reserved

/-- A text that marks nothing is read as one in which no name is reserved. -/
theorem readEmbedded_eq {text : String} (h : MarksNothing reserved text) :
    readEmbedded reserved text = readLenient text := by
  rw [readEmbedded, readHeld, readLenient_eq]
  cases hw : written.read (tokens text.toList) with
  | error fault => rfl
  | ok w => exact expand_of_unmarked w (h w hw)

end Embedded

/-! ### Bytes -/

theorem readStrictBytes_encode (text : String) :
    readStrictBytes (Utf8.encode text) = readStrict text := by
  rw [readStrictBytes, Utf8.encode, Utf8.split_encodeChars]
  rfl

/-- Bytes that write no text are refused. -/
theorem readStrictBytes_of_not_text {bytes : Bytes} (h : ∀ text, Utf8.encode text ≠ bytes) :
    ∃ fault, readStrictBytes bytes = .error fault := by
  rw [readStrictBytes]
  cases hsplit : Utf8.split bytes with
  | mk chars fault =>
    cases fault with
    | none =>
      have hdecode : Utf8.decode bytes = .ok (String.ofList chars) := by rw [Utf8.decode, hsplit]
      exact absurd (Utf8.encode_of_decode hdecode) (h _)
    | some _ =>
      dsimp only
      cases strict.run (.value []) (tokens chars) with
      | ok last => exact ⟨.malformed, rfl⟩
      | error fault => exact ⟨fault, rfl⟩

/-- A text is read strictly as a tree just if it is read leniently as the same tree and repeats no name
    at any depth; so is a text that marks nothing if a name is reserved. Every other text is no JSON.
    Bytes are decoded as the text that they write, and are no JSON if they write none. -/
theorem strict_iff_lenient_without_repeats (reserved : String) :
    (∀ text tree, readStrict text = .ok tree ↔ readLenient text = .ok tree ∧ RepeatsNoName text) ∧
    (∀ text, MarksNothing reserved text → ∀ tree,
      readStrict text = .ok tree ↔ readEmbedded reserved text = .ok tree ∧ RepeatsNoName text) ∧
    (∀ text tree, readStrict text = .ok tree → written.read (tokens text.toList) = .ok tree) ∧
    (∀ text, (∀ tree, readStrict text ≠ .ok tree) →
      ∃ fault, readStrict text = .error fault ∧ Value.decodeText text = .error (.notJson fault)) ∧
    (∀ text, Value.decodeBytes (Utf8.encode text) = Value.decodeText text) ∧
    ∀ bytes, (∀ text, Utf8.encode text ≠ bytes) →
      ∃ fault, Value.decodeBytes bytes = .error (.notJson fault) := by
  refine ⟨fun _ _ => readStrict_eq_ok_iff, fun text h tree => ?_, fun _ _ => written_of_readStrict,
    fun text h => ?_, fun text => ?_, fun bytes h => ?_⟩
  · rw [readEmbedded_eq h]
    exact readStrict_eq_ok_iff
  · cases hread : readStrict text with
    | ok tree => exact absurd hread (h tree)
    | error fault => exact ⟨fault, rfl, by rw [Value.decodeText, hread]⟩
  · rw [Value.decodeBytes, Value.decodeText, readStrictBytes_encode]
  · obtain ⟨fault, hfault⟩ := readStrictBytes_of_not_text h
    exact ⟨fault, by rw [Value.decodeBytes, hfault]⟩

/-- A name is written in two ways and stands twice in a text; a name that is reserved stands in another,
    but does not come first; bytes are no text. -/
theorem strict_iff_lenient_without_repeats_escaped :
    let twice := "\x7b\"t\":1,\"\\u0074\":2\x7d"
    let later := "\x7b\"t\":1,\"raw\":2\x7d"
    let two : Number := .int ⟨2, by decide⟩
    let tree : Json := .object [("t", .number (.int ⟨1, by decide⟩)), ("raw", .number two)]
    (readLenient twice = .ok (.object [("t", .number two)]) ∧ ¬ RepeatsNoName twice ∧
      ∃ fault, Value.decodeText twice = .error (.notJson fault)) ∧
    (MarksNothing "raw" later ∧ readStrict later = .ok tree ∧ readEmbedded "raw" later = .ok tree) ∧
    ∃ fault, Value.decodeBytes [0x22, 0xff, 0x22] = .error (.notJson fault) := by
  intro twice later two tree
  obtain ⟨hlenient, hembedded, -, hrefused, -, hbytes⟩ := strict_iff_lenient_without_repeats "raw"
  have htwice : tokens twice.toList = [.beginObject, .string "t".toList, .colon, .word "1".toList,
      .comma, .string "\\u0074".toList, .colon, .word "2".toList, .endObject] := by decide +kernel
  have hlater : tokens later.toList = [.beginObject, .string "t".toList, .colon, .word "1".toList,
      .comma, .string "raw".toList, .colon, .word "2".toList, .endObject] := by decide +kernel
  have hlast : readLenient twice = .ok (.object [("t", .number two)]) := by
    rw [readLenient, htwice]
    rfl
  have hstrict : readStrict twice = .error (.duplicateName "t") := by
    rw [readStrict, htwice]
    rfl
  have hwritten : written.read (tokens later.toList) = .ok tree := by
    rw [hlater]
    rfl
  have hread : readStrict later = .ok tree := by
    rw [readStrict, hlater]
    rfl
  have hmarks : MarksNothing "raw" later := by
    intro w hw
    cases hwritten.symm.trans hw
    exact ⟨fun m hm => by cases hm; decide, trivial, trivial, trivial⟩
  have hrepeats : ¬ RepeatsNoName twice := fun h => by
    cases hstrict.symm.trans ((hlenient twice _).2 ⟨hlast, h⟩)
  obtain ⟨fault, -, hfault⟩ := hrefused twice fun tree htree => by cases hstrict.symm.trans htree
  refine ⟨⟨hlast, hrepeats, fault, hfault⟩, ⟨hmarks, hread, ((hembedded later hmarks _).1 hread).1⟩,
    hbytes _ fun text htext => ?_⟩
  have hdecode := Utf8.decode_encode text
  rw [htext] at hdecode
  cases hdecode

/-- An object that begins with the reserved name is read strictly, as any other, and not as the value
    that it has to hold. -/
theorem strict_ignores_reserved_name :
    let text := "\x7b\"$serde_json::private::RawValue\":1\x7d"
    (∃ tree, readStrict text = .ok tree) ∧ RepeatsNoName text ∧
      readEmbedded "$serde_json::private::RawValue" text = .error .malformed := by
  intro text
  let tree : Json :=
    .object [("$serde_json::private::RawValue", .number (.int ⟨1, by decide⟩))]
  have htext : tokens text.toList = [.beginObject, .string "$serde_json::private::RawValue".toList,
      .colon, .word "1".toList, .endObject] := by decide +kernel
  have hwritten : written.read (tokens text.toList) = .ok tree := by
    rw [htext]
    rfl
  refine ⟨⟨tree, ?_⟩, ⟨tree, hwritten, by simp [tree, Distinct, DistinctMembers]⟩, ?_⟩
  · rw [readStrict, htext]
    rfl
  · rw [readEmbedded, readHeld, hwritten]
    rfl

end TypedStore.Json
