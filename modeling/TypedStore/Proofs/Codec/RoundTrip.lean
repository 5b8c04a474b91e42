/-
  TypedStore/Proofs/Codec/RoundTrip.lean
  ======================================
  **Stored values are read back as they are.**

  A value in the domain of the store is what its node, the text of its node and the bytes of that
  text stand for (`codec_roundtrip`): every kind, the order of elements and members, and each bit of
  a float. The bound on the depth of values keeps their text within the containers that the reading
  opens (`nesting_encode_le`).
-/
import TypedStore.Proofs.Codec.Reading
import TypedStore.Tagged.Decoding
import TypedStore.Tagged.Encoding

namespace TypedStore

namespace Value

/-! ### The text stays within the bounds of the reading -/

theorem encodePayload_arr (items : List Value) :
    (arr items).encodePayload = .array (encodeItems items) := rfl

theorem encodePayload_obj (members : List (String × Value)) :
    (obj members).encodePayload = .object (encodeMembers members) := rfl

theorem encodePayload_f64 (x : Binary64) : (f64 x).encodePayload = .ofFloat x := rfl

mutual

theorem nesting_encodePayload_le (v : Value) : v.encodePayload.nesting ≤ 2 * v.depth := by
  cases v with
  | arr items =>
    have hitems := nestingItems_encodeItems_le items
    rw [encodePayload_arr, Json.nesting, depth]
    omega
  | obj members =>
    have hmembers := nestingMembers_encodeMembers_le members
    rw [encodePayload_obj, Json.nesting, depth]
    omega
  | f64 x =>
    rw [encodePayload_f64, Json.ofFloat]
    split <;> exact Nat.zero_le _
  | _ => exact Nat.zero_le _

theorem nestingItems_encodeItems_le (items : List Value) :
    Json.nestingItems (encodeItems items) ≤ 1 + 2 * depthItems items := by
  cases items with
  | nil => exact Nat.zero_le _
  | cons item rest =>
    have hitem := nesting_encodePayload_le item
    have hrest := nestingItems_encodeItems_le rest
    simp only [encodeItems, Json.nestingItems, depthItems, Json.node, Json.nesting,
      Json.nestingMembers]
    omega

theorem nestingMembers_encodeMembers_le (members : List (String × Value)) :
    Json.nestingMembers (encodeMembers members) ≤ 1 + 2 * depthMembers members := by
  cases members with
  | nil => exact Nat.zero_le _
  | cons member rest =>
    obtain ⟨name, value⟩ := member
    have hvalue := nesting_encodePayload_le value
    have hrest := nestingMembers_encodeMembers_le rest
    simp only [encodeMembers, Json.nestingMembers, depthMembers, Json.node, Json.nesting]
    omega

end

/-- Each level of a value takes two containers of its text, and the scalars take one. -/
theorem nesting_encode_le (v : Value) : v.encode.nesting ≤ 1 + 2 * v.depth := by
  have hpayload := nesting_encodePayload_le v
  simp only [encode, Json.node, Json.nesting, Json.nestingMembers]
  omega

theorem names_encodeMembers (members : List (String × Value)) :
    (encodeMembers members).map (·.1) = members.map (·.1) := by
  induction members with
  | nil => rfl
  | cons member rest ih =>
    obtain ⟨name, value⟩ := member
    rw [encodeMembers, List.map_cons, List.map_cons, ih]

theorem distinct_node {kind : Kind} {payload : Json} (h : payload.Distinct) :
    (Json.node kind payload).Distinct :=
  ⟨by simp, trivial, h, trivial⟩

mutual

theorem distinct_encodePayload (v : Value) (h : v.Distinct) : v.encodePayload.Distinct := by
  cases v with
  | arr items => exact distinct_encodeItems items h
  | obj members =>
    obtain ⟨hnames, hmembers⟩ := h
    refine ⟨?_, distinct_encodeMembers members hmembers⟩
    rw [names_encodeMembers]
    exact hnames
  | f64 x =>
    rw [encodePayload_f64, Json.ofFloat]
    split <;> trivial
  | _ => trivial

theorem distinct_encodeItems (items : List Value) (h : DistinctItems items) :
    Json.DistinctItems (encodeItems items) := by
  cases items with
  | nil => trivial
  | cons item rest =>
    exact ⟨distinct_node (distinct_encodePayload item h.1), distinct_encodeItems rest h.2⟩

theorem distinct_encodeMembers (members : List (String × Value)) (h : DistinctMembers members) :
    Json.DistinctMembers (encodeMembers members) := by
  cases members with
  | nil => trivial
  | cons member rest =>
    obtain ⟨name, value⟩ := member
    exact ⟨distinct_node (distinct_encodePayload value h.1), distinct_encodeMembers rest h.2⟩

end

/-- No object of an encoded value repeats a name. -/
theorem distinct_encode {v : Value} (h : v.Distinct) : v.encode.Distinct :=
  distinct_node (distinct_encodePayload v h)

/-! ### Decoding -/

theorem kindOfTag_tag {depth : Nat} {kind : Kind} (h : kind.isComposite → depth < maxDepth) :
    kindOfTag depth (.string kind.tag) = .ok kind := by
  have hdepth : ¬ (kind.isComposite ∧ maxDepth ≤ depth) := by
    rintro ⟨hkind, hle⟩
    have := h hkind
    omega
  simp only [kindOfTag, Kind.ofTag?_tag, if_neg hdepth]

theorem decodeAt_node {path : NodePath} {kind : Kind} {payload : Json}
    (h : kind.isComposite → path.length < maxDepth) :
    decodeAt path (Json.node kind payload) = decodePayload path kind payload := by
  simp only [Json.node, decodeAt, and_self, ↓reduceIte, kindOfTag_tag h]

theorem ofInt?_i32 (n : Int32) : ofInt? n.toInt .i32 = some (.i32 n) := by
  have hlow := n.le_toInt
  have hhigh := n.toInt_lt
  rw [ofInt?, if_pos (by omega), Int32.ofInt_toInt]

theorem ofInt?_i64 (n : Int64) : ofInt? n.toInt .i64 = some (.i64 n) := by
  have hlow := n.le_toInt
  have hhigh := n.toInt_lt
  rw [ofInt?, if_pos (by omega), Int64.ofInt_toInt]

theorem ofInt?_u32 (n : UInt32) : ofInt? n.toNat .u32 = some (.u32 n) := by
  have hhigh := n.toNat_lt
  rw [ofInt?, if_pos (by omega), Int.toNat_natCast, UInt32.ofNat_toNat]

theorem ofInt?_u64 (n : UInt64) : ofInt? n.toNat .u64 = some (.u64 n) := by
  have hhigh := n.toNat_lt
  rw [ofInt?, if_pos (by omega), Int.toNat_natCast, UInt64.ofNat_toNat]

theorem ofPayload_ofInt {n : Int} {kind : Kind} {v : Value}
    (hbounds : -0x8000000000000000 ≤ n ∧ n < 0x10000000000000000) (h : ofInt? n kind = some v) :
    ofPayload kind (Json.ofInt n hbounds) = .ok v := by
  cases kind with
  | i32 | u32 | i64 | u64 => simp only [Json.ofInt, ofPayload, h, Option.elim]
  | _ => cases h

/-- The value of a scalar is made again from its payload. -/
theorem ofPayload_encodePayload {v : Value} (hscalar : v.kind.isComposite = false)
    (hfinite : v.nonFinite? = none) : ofPayload v.kind v.encodePayload = .ok v := by
  cases v with
  | i32 n => exact ofPayload_ofInt _ (ofInt?_i32 n)
  | u32 n => exact ofPayload_ofInt _ (ofInt?_u32 n)
  | i64 n => exact ofPayload_ofInt _ (ofInt?_i64 n)
  | u64 n => exact ofPayload_ofInt _ (ofInt?_u64 n)
  | f64 x =>
    have hx : x.isFinite := by
      by_contra hx
      simp [nonFinite?, hx] at hfinite
    rw [encodePayload_f64, Json.ofFloat, dif_pos hx]
    rfl
  | bool b => rfl
  | str s => rfl
  | null => rfl
  | arr items => cases hscalar
  | obj members => cases hscalar

theorem decodePayload_scalar {path : NodePath} {kind : Kind} {payload : Json} {v : Value}
    (hscalar : kind.isComposite = false) (h : ofPayload kind payload = .ok v) :
    decodePayload path kind payload = .ok v := by
  have hmade : decodeScalar path kind payload = .ok v := by
    rw [decodeScalar, hscalar, h]
    rfl
  cases payload with
  | array items => rwa [decodePayload, if_neg (by rintro rfl; cases hscalar)]
  | object members => rwa [decodePayload, if_neg (by rintro rfl; cases hscalar)]
  | _ => exact hmade

mutual

/-- A node decodes to the value that it was made from, wherever its depth allows it to stand. -/
theorem decodeAt_encode (v : Value) (path : NodePath) (hdepth : path.length + v.depth ≤ maxDepth)
    (hfinite : v.nonFinite? = none) :
    decodeAt path (Json.node v.kind v.encodePayload) = .ok v := by
  cases v with
  | arr items =>
    rw [depth] at hdepth
    rw [nonFinite?] at hfinite
    have hitems := decodeItems_encodeItems items path 0 (by omega) hfinite
    rw [decodeAt_node (fun _ => by omega), encodePayload_arr, kind, decodePayload, if_pos rfl,
      hitems]
    rfl
  | obj members =>
    rw [depth] at hdepth
    rw [nonFinite?] at hfinite
    have hmembers := decodeMembers_encodeMembers members path (by omega) hfinite
    rw [decodeAt_node (fun _ => by omega), encodePayload_obj, kind, decodePayload, if_pos rfl,
      hmembers]
    rfl
  | _ =>
    rw [decodeAt_node (fun hkind => by cases hkind)]
    exact decodePayload_scalar rfl (ofPayload_encodePayload rfl hfinite)

theorem decodeItems_encodeItems (items : List Value) (path : NodePath) (i : Nat)
    (hdepth : path.length + 1 + depthItems items ≤ maxDepth)
    (hfinite : nonFiniteItem? items = none) :
    decodeItems path i (encodeItems items) = .ok items := by
  cases items with
  | nil => rfl
  | cons item rest =>
    rw [depthItems] at hdepth
    obtain ⟨hitem, hrest⟩ := Option.or_eq_none_iff.1 hfinite
    have hhead := decodeAt_encode item (path ++ [.index i])
      (by rw [List.length_append, List.length_singleton]; omega) hitem
    have hmore := decodeItems_encodeItems rest path (i + 1) (by omega) hrest
    simp only [encodeItems, decodeItems, hhead, hmore]
    rfl

theorem decodeMembers_encodeMembers (members : List (String × Value)) (path : NodePath)
    (hdepth : path.length + 1 + depthMembers members ≤ maxDepth)
    (hfinite : nonFiniteMember? members = none) :
    decodeMembers path (encodeMembers members) = .ok members := by
  cases members with
  | nil => rfl
  | cons member rest =>
    obtain ⟨name, value⟩ := member
    rw [depthMembers] at hdepth
    obtain ⟨hvalue, hrest⟩ := Option.or_eq_none_iff.1 hfinite
    have hhead := decodeAt_encode value (path ++ [.field name])
      (by rw [List.length_append, List.length_singleton]; omega) hvalue
    have hmore := decodeMembers_encodeMembers rest path (by omega) hrest
    simp only [encodeMembers, decodeMembers, hhead, hmore]
    rfl

end

/-! ### The whole way -/

section Domain

variable {v : Value}

theorem decode_encode_of_checkDomain (h : v.checkDomain = .ok ()) : decode v.encode = .ok v := by
  obtain ⟨hdepth, hfinite⟩ := checkDomain_eq_ok_iff.1 h
  exact decodeAt_encode v [] (by simpa using hdepth) hfinite

theorem nesting_encode_of_checkDomain (h : v.checkDomain = .ok ()) :
    v.encode.nesting ≤ Json.maxOpen := by
  obtain ⟨hdepth, -⟩ := checkDomain_eq_ok_iff.1 h
  have hnesting := nesting_encode_le v
  simp only [maxDepth] at hdepth
  simp only [Json.maxOpen]
  omega

theorem decodeText_encoding (hdistinct : v.Distinct) (h : v.checkDomain = .ok ()) :
    decodeText v.encoding = .ok v := by
  have hread := Json.readStrict_text (distinct_encode hdistinct) (nesting_encode_of_checkDomain h)
  simp only [decodeText, encoding, hread]
  exact decode_encode_of_checkDomain h

theorem decodeBytes_encoding (hdistinct : v.Distinct) (h : v.checkDomain = .ok ()) :
    decodeBytes (Utf8.encode v.encoding) = .ok v := by
  have hread := Json.readStrictBytes_text (distinct_encode hdistinct)
    (nesting_encode_of_checkDomain h)
  simp only [decodeBytes, encoding, hread]
  exact decode_encode_of_checkDomain h

/-- Every value in the domain of the store comes back from its node, from the text of the node and
    from the bytes of that text, and it is the very same value: the kind of each node, the order of
    elements and members, and the bits of each float. -/
theorem codec_roundtrip (hdistinct : v.Distinct) (hdomain : v.checkDomain = .ok ()) :
    decode v.encode = .ok v ∧ decodeText v.encoding = .ok v ∧
      decodeBytes (Utf8.encode v.encoding) = .ok v :=
  ⟨decode_encode_of_checkDomain hdomain, decodeText_encoding hdistinct hdomain,
    decodeBytes_encoding hdistinct hdomain⟩

end Domain

/-- The round trip of an object whose names and strings have to be escaped, with a negative zero
    and the integers at the ends of sixty-four bits. -/
theorem codec_roundtrip_escapes :
    let v : Value := .obj [("a\"\\\x01é", .arr [.f64 ⟨0x8000000000000000⟩, .str "\n/\x1f😀", .null]),
      ("", .arr [.i64 Int64.minValue, .u64 0xFFFFFFFFFFFFFFFF, .obj [], .bool true])]
    v.Distinct ∧ v.checkDomain = .ok () ∧
      decode v.encode = .ok v ∧ decodeText v.encoding = .ok v ∧
        decodeBytes (Utf8.encode v.encoding) = .ok v := by
  intro v
  have hdistinct : v.Distinct := by
    simp [v, Distinct, DistinctItems, DistinctMembers]
  have hdomain : v.checkDomain = .ok () := by decide
  exact ⟨hdistinct, hdomain, codec_roundtrip hdistinct hdomain⟩

end Value

end TypedStore
