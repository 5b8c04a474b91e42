/-
  TypedStore/Proofs/Codec/Decoding.lean
  =====================================
  **Decoding accepts the grammar, and encoding undoes it.**

  Whatever holds of a node if it holds of the nodes in its payload holds of all that is decoded
  (`NodeInduction.of_decodeAt`): the induction over the tree is made once, and the path is left behind
  in it, of which only the length counts. So what is decoded is in the grammar and is encoded as the
  tidy tree (`isNode_induction`). Conversely each node of the grammar is decoded (`exists_decodeAt`).
-/
import TypedStore.Proofs.Codec.Grammar
import TypedStore.Proofs.Results

namespace TypedStore.Value

open Json (Tags)

variable {path : NodePath} {kind : Kind} {payload r : Json} {v : Value}
  {members : List (String × Json)}

/-! ### One node -/

theorem kindOfTag_eq_ok_iff {depth : Nat} {tag : Json} :
    kindOfTag depth tag = .ok kind ↔
      tag = .string kind.tag ∧ (kind.isComposite → depth < maxDepth) := by
  constructor
  · intro h
    unfold kindOfTag at h
    split at h
    · next name =>
      split at h
      · next kind' hkind =>
        split at h
        · cases h
        · next hdepth =>
          cases h
          refine ⟨by rw [Kind.tag_of_ofTag? hkind], ?_⟩
          intro hcomposite
          exact Nat.not_le.1 fun hle => hdepth ⟨hcomposite, hle⟩
      · cases h
    · cases h
  · rintro ⟨rfl, h⟩
    exact kindOfTag_tag h

theorem decodeAt_of_tags (htags : Tags members kind payload)
    (h : kind.isComposite → path.length < maxDepth) :
    decodeAt path (.object members) = decodePayload path kind payload := by
  rcases List.perm_pair.1 htags with rfl | rfl
  · exact decodeAt_node h
  · simp [decodeAt, kindOfTag_tag h]

theorem decodeScalar_eq_ok_iff :
    decodeScalar path kind payload = .ok v ↔
      kind.isComposite = false ∧ ofPayload kind payload = .ok v := by
  unfold decodeScalar
  cases kind.isComposite with
  | true => simp
  | false => simp [Except.mapError_eq_ok_iff]

/-! ### Induction over a tree -/

/-- Something that holds of what is decoded if it holds of what the payloads are decoded to. -/
structure NodeInduction (p : Nat → Json → Value → Prop) : Prop where
  scalar {enclosing : Nat} {members : List (String × Json)} {kind : Kind} {payload : Json}
    {v : Value} : Tags members kind payload → kind.isComposite = false →
      ofPayload kind payload = .ok v → p enclosing (.object members) v
  arr {enclosing : Nat} {members : List (String × Json)} {items : List Json}
    {values : List Value} : Tags members .arr (.array items) → enclosing < maxDepth →
      List.Forall₂ (p (enclosing + 1)) items values → p enclosing (.object members) (.arr values)
  obj {enclosing : Nat} {members fields : List (String × Json)} {values : List (String × Value)} :
    Tags members .obj (.object fields) → enclosing < maxDepth →
      List.Forall₂ (fun field value => field.1 = value.1 ∧ p (enclosing + 1) field.2 value.2)
        fields values → p enclosing (.object members) (.obj values)

namespace NodeInduction

variable {p : Nat → Json → Value → Prop}

mutual

theorem of_decodeAt (h : NodeInduction p) (r : Json) (path : NodePath) (v : Value)
    (hok : decodeAt path r = .ok v) : p path.length r v := by
  cases r with
  | object members =>
    match members, hok with
    | [(a, x), (b, y)], hok =>
      rw [decodeAt] at hok
      split at hok
      · next hnames =>
        obtain ⟨rfl, rfl⟩ := hnames
        split at hok
        · next kind hkind =>
          obtain ⟨rfl, hdepth⟩ := kindOfTag_eq_ok_iff.1 hkind
          exact of_decodePayload h y path v (List.Perm.refl _) hdepth hok
        · cases hok
      · split at hok
        · next hnames =>
          obtain ⟨rfl, rfl⟩ := hnames
          split at hok
          · next kind hkind =>
            obtain ⟨rfl, hdepth⟩ := kindOfTag_eq_ok_iff.1 hkind
            exact of_decodePayload h x path v (List.Perm.swap ..) hdepth hok
          · cases hok
        · cases hok
    | [], hok => cases hok
    | [_], hok => cases hok
    | _ :: _ :: _ :: _, hok => cases hok
  | _ => cases hok

theorem of_decodePayload (h : NodeInduction p) {members : List (String × Json)} {kind : Kind} (payload : Json)
    (path : NodePath) (v : Value) (htags : Tags members kind payload)
    (hdepth : kind.isComposite → path.length < maxDepth)
    (hok : decodePayload path kind payload = .ok v) : p path.length (.object members) v := by
  cases payload with
  | array items =>
    rw [decodePayload] at hok
    split at hok
    · next hkind =>
      subst hkind
      obtain ⟨values, hvalues, rfl⟩ := Except.map_eq_ok_iff.1 hok
      exact h.arr htags (hdepth rfl) (of_decodeItems h items path 0 values hvalues)
    · obtain ⟨hscalar, hmade⟩ := decodeScalar_eq_ok_iff.1 hok
      exact h.scalar htags hscalar hmade
  | object fields =>
    rw [decodePayload] at hok
    split at hok
    · next hkind =>
      subst hkind
      obtain ⟨values, hvalues, rfl⟩ := Except.map_eq_ok_iff.1 hok
      exact h.obj htags (hdepth rfl) (of_decodeMembers h fields path values hvalues)
    · obtain ⟨hscalar, hmade⟩ := decodeScalar_eq_ok_iff.1 hok
      exact h.scalar htags hscalar hmade
  | _ =>
    obtain ⟨hscalar, hmade⟩ := decodeScalar_eq_ok_iff.1 hok
    exact h.scalar htags hscalar hmade

theorem of_decodeItems (h : NodeInduction p) (items : List Json) (path : NodePath) (i : Nat)
    (values : List Value) (hok : decodeItems path i items = .ok values) :
    List.Forall₂ (p (path.length + 1)) items values := by
  cases items with
  | nil =>
    cases hok
    exact .nil
  | cons item rest =>
    rw [decodeItems] at hok
    split at hok
    · cases hok
    · next value hvalue =>
      obtain ⟨more, hmore, rfl⟩ := Except.map_eq_ok_iff.1 hok
      have hhead := of_decodeAt h item _ value hvalue
      rw [List.length_append, List.length_singleton] at hhead
      exact .cons hhead (of_decodeItems h rest path (i + 1) more hmore)

theorem of_decodeMembers (h : NodeInduction p) (fields : List (String × Json)) (path : NodePath)
    (values : List (String × Value)) (hok : decodeMembers path fields = .ok values) :
    List.Forall₂ (fun field value => field.1 = value.1 ∧ p (path.length + 1) field.2 value.2)
      fields values := by
  cases fields with
  | nil =>
    cases hok
    exact .nil
  | cons field rest =>
    obtain ⟨name, tree⟩ := field
    rw [decodeMembers] at hok
    split at hok
    · cases hok
    · next value hvalue =>
      obtain ⟨more, hmore, rfl⟩ := Except.map_eq_ok_iff.1 hok
      have hhead := of_decodeAt h tree _ value hvalue
      rw [List.length_append, List.length_singleton] at hhead
      exact .cons ⟨rfl, hhead⟩ (of_decodeMembers h rest path more hmore)

end

end NodeInduction

/-! ### What is decoded -/

theorem encodeItems_eq {items : List Json} {values : List Value}
    (h : List.Forall₂ (fun item value => encode value = item.tidy) items values) :
    encodeItems values = Json.tidyItems items := by
  induction h with
  | nil => rfl
  | cons hhead _ ih =>
    rw [encodeItems, Json.tidyItems, ih, ← hhead]
    rfl

theorem encodeMembers_eq {fields : List (String × Json)} {values : List (String × Value)}
    (h : List.Forall₂ (fun field value => field.1 = value.1 ∧ encode value.2 = field.2.tidy)
      fields values) : encodeMembers values = Json.tidyMembers fields := by
  induction h with
  | nil => rfl
  | cons hhead _ ih =>
    obtain ⟨hname, hvalue⟩ := hhead
    rw [encodeMembers, Json.tidyMembers, ih, hname, ← hvalue]
    rfl

/-- What is decoded is in the grammar, and is written again as it was but for its tidiness. -/
theorem isNode_induction :
    NodeInduction fun enclosing r v => r.IsNode enclosing ∧ v.encode = r.tidy := by
  constructor
  · intro enclosing members kind payload v htags _ hmade
    obtain ⟨hscalar, hkind, hpayload⟩ := isScalar_of_ofPayload hmade
    refine ⟨.scalar htags hscalar, ?_⟩
    rw [Json.tidy_of_tags htags, encode, hkind, hpayload]
  · intro enclosing members items values htags hdepth hitems
    obtain ⟨hnodes, hencoded⟩ := (List.forall₂_and_left ..).1 hitems
    refine ⟨.arr htags hdepth hnodes, ?_⟩
    rw [Json.tidy_of_tags htags, encode, encodePayload_arr, encodeItems_eq hencoded]
    rfl
  · intro enclosing members fields values htags hdepth hfields
    have hsplit : List.Forall₂ (fun (field : String × Json) (value : String × Value) =>
        field.2.IsNode (enclosing + 1) ∧ field.1 = value.1 ∧ value.2.encode = field.2.tidy)
        fields values := hfields.imp fun _ _ h => ⟨h.2.1, h.1, h.2.2⟩
    obtain ⟨hnodes, hencoded⟩ := (List.forall₂_and_left ..).1 hsplit
    refine ⟨.obj htags hdepth hnodes, ?_⟩
    rw [Json.tidy_of_tags htags, encode, encodePayload_obj, encodeMembers_eq hencoded]
    rfl

/-! ### What can be decoded -/

theorem exists_decodeItems {items : List Json} {enclosing : Nat} (i : Nat)
    (hpath : path.length = enclosing)
    (h : ∀ item ∈ items, ∀ path : NodePath, path.length = enclosing + 1 →
      ∃ v, decodeAt path item = .ok v) : ∃ values, decodeItems path i items = .ok values := by
  induction items generalizing i with
  | nil => exact ⟨[], rfl⟩
  | cons item rest ih =>
    obtain ⟨value, hvalue⟩ := h item List.mem_cons_self (path ++ [.index i]) (by simp [hpath])
    obtain ⟨more, hmore⟩ := ih (i + 1) fun item hitem => h item (List.mem_cons_of_mem _ hitem)
    refine ⟨value :: more, ?_⟩
    simp only [decodeItems, hvalue, hmore]
    rfl

theorem exists_decodeMembers {fields : List (String × Json)} {enclosing : Nat}
    (hpath : path.length = enclosing)
    (h : ∀ field ∈ fields, ∀ path : NodePath, path.length = enclosing + 1 →
      ∃ v, decodeAt path field.2 = .ok v) : ∃ values, decodeMembers path fields = .ok values := by
  induction fields with
  | nil => exact ⟨[], rfl⟩
  | cons field rest ih =>
    obtain ⟨name, tree⟩ := field
    obtain ⟨value, hvalue⟩ :=
      h (name, tree) List.mem_cons_self (path ++ [.field name]) (by simp [hpath])
    obtain ⟨more, hmore⟩ := ih fun field hfield => h field (List.mem_cons_of_mem _ hfield)
    refine ⟨(name, value) :: more, ?_⟩
    simp only [decodeMembers, hvalue, hmore]
    rfl

/-- Every node of the grammar is decoded, wherever it may stand. -/
theorem exists_decodeAt {enclosing : Nat} (h : r.IsNode enclosing) (path : NodePath)
    (hpath : path.length = enclosing) : ∃ v, decodeAt path r = .ok v := by
  induction h generalizing path with
  | scalar htags hscalar =>
    obtain ⟨v, hv⟩ := ofPayload_of_isScalar hscalar
    have hkind := isComposite_of_ofPayload hv
    refine ⟨v, ?_⟩
    rw [decodeAt_of_tags htags (by simp [hkind])]
    exact decodePayload_scalar hkind hv
  | arr htags hdepth _ ih =>
    obtain ⟨values, hvalues⟩ := exists_decodeItems 0 hpath ih
    refine ⟨.arr values, ?_⟩
    rw [decodeAt_of_tags htags (fun _ => hpath ▸ hdepth), decodePayload, if_pos rfl, hvalues]
    rfl
  | obj htags hdepth _ ih =>
    obtain ⟨values, hvalues⟩ := exists_decodeMembers hpath ih
    refine ⟨.obj values, ?_⟩
    rw [decodeAt_of_tags htags (fun _ => hpath ▸ hdepth), decodePayload, if_pos rfl, hvalues]
    rfl

/-- Decoding accepts just the trees of the grammar, and what it has accepted is written again as the
    same tree but for its tidiness: the tag stands before the payload in each node, and the payload of a
    float is a float. -/
theorem decode_grammar (r : Json) :
    ((∃ v, decode r = .ok v) ↔ r.IsNode 0) ∧ ∀ v, decode r = .ok v → v.encode = r.tidy := by
  have hnode : ∀ v, decode r = .ok v → r.IsNode 0 ∧ v.encode = r.tidy :=
    fun v hv => isNode_induction.of_decodeAt r [] v hv
  refine ⟨⟨?_, ?_⟩, fun v hv => (hnode v hv).2⟩
  · rintro ⟨v, hv⟩
    exact (hnode v hv).1
  · intro h
    exact exists_decodeAt h [] rfl

/-- An array of one float, with the payload before the tag and the float written as an integer. -/
theorem decode_grammar_swapped :
    let r : Json := .object [("v", .array [.object [("v", .number (.int ⟨1, by decide⟩)),
      ("t", .string "f64")]]), ("t", .string "arr")]
    let v : Value := .arr [.f64 ⟨0x3FF0000000000000⟩]
    decode r = .ok v ∧ r.IsNode 0 ∧
      v.encode = .object [("t", .string "arr"), ("v", .array [.object [("t", .string "f64"),
        ("v", .number (.float ⟨⟨0x3FF0000000000000⟩, by decide⟩))]])] := by
  intro r v
  have hdecode : decode r = .ok v := rfl
  obtain ⟨haccepts, hencodes⟩ := decode_grammar r
  exact ⟨hdecode, haccepts.1 ⟨v, hdecode⟩, (hencodes v hdecode).trans rfl⟩

end TypedStore.Value
