/-
  TypedStore/Proofs/Codec/Flaws.lean
  ==================================
  **What is wrong with a node by itself, and which node is blamed.**

  The nodes of a tree stand in the order of the text: a node before those in its payload, and these in
  the order of elements and members, each with its place (`Json.nodes`). A node has flaws of its own,
  whatever is in its payload (`Json.HasFlaw`), and may have several. None of this is said by way of
  decoding.

  Decoding settles the nodes in their order (`settles_decodeAt`): the node that it blames is the first
  one with a flaw, and the fault tells the place of that node, and whether its only flaw is an integer
  that does not fit (`decode_blames_first_flawed`).
-/
import TypedStore.Proofs.Codec.Decoding
import TypedStore.Proofs.FirstRefusal

namespace TypedStore

/-! ### Places as they are written -/

/-- A step further is written after a point. -/
theorem NodePath.text_concat {path : NodePath} (h : path ≠ []) (step : Step) :
    NodePath.text (path ++ [step]) = path.text ++ "." ++ step.text := by
  rw [text, text, if_neg h, if_neg (by simp), List.map_append,
    String.intercalate_append_of_ne_nil (by simpa using h) (by simp), List.map_singleton,
    String.intercalate_singleton]

theorem Kind.eq_of_tag_eq {a b : Kind} (h : a.tag = b.tag) : a = b := by
  have hkind := Kind.ofTag?_tag a
  rw [h, Kind.ofTag?_tag] at hkind
  exact (Option.some.inj hkind).symm

namespace Json

/-! ### The nodes of a tree -/

def isTag (kind : Kind) : Option Json → Bool
  | some (.string tag) => tag = kind.tag
  | _ => false

mutual

/-- The node at a place and those in its payload, in the order of the text. -/
def nodes (path : NodePath) : Json → List (NodePath × Json)
  | .object members => (path, .object members) :: memberNodes path (find? "t" members) members
  | other => [(path, other)]

/-- The nodes in the payload that is among the members of the node at `path`, which has that tag. -/
def memberNodes (path : NodePath) (tag : Option Json) : List (String × Json) → List (NodePath × Json)
  | [] => []
  | (name, member) :: rest =>
    if name = "v" then payloadNodes path tag member else memberNodes path tag rest

def payloadNodes (path : NodePath) (tag : Option Json) : Json → List (NodePath × Json)
  | .array items => if isTag .arr tag then itemNodes path 0 items else []
  | .object fields => if isTag .obj tag then fieldNodes path fields else []
  | _ => []

/-- The nodes in the elements from the `i`-th on of the array at `path`. -/
def itemNodes (path : NodePath) (i : Nat) : List Json → List (NodePath × Json)
  | [] => []
  | item :: rest => nodes (path ++ [.index i]) item ++ itemNodes path (i + 1) rest

def fieldNodes (path : NodePath) : List (String × Json) → List (NodePath × Json)
  | [] => []
  | (name, field) :: rest => nodes (path ++ [.field name]) field ++ fieldNodes path rest

end

/-! ### Flaws -/

/-- The payloads whose type is the one that a kind demands. -/
inductive HasShape : Kind → Json → Prop where
  | int {kind : Kind} {bounds : Int × Int}
    (n : { n : Int // -0x8000000000000000 ≤ n ∧ n < 0x10000000000000000 }) :
    kind.bounds? = some bounds → HasShape kind (.number (.int n))
  | float (n : Number) : HasShape .f64 (.number n)
  | bool (b : Bool) : HasShape .bool (.bool b)
  | str (s : String) : HasShape .str (.string s)
  | null : HasShape .null .null
  | arr (items : List Json) : HasShape .arr (.array items)
  | obj (fields : List (String × Json)) : HasShape .obj (.object fields)

theorem HasShape.eq_arr {kind : Kind} {items : List Json} (h : HasShape kind (.array items)) :
    kind = .arr := by
  cases h
  rfl

theorem HasShape.eq_obj {kind : Kind} {fields : List (String × Json)}
    (h : HasShape kind (.object fields)) : kind = .obj := by
  cases h
  rfl

/-- Arrays and objects have arrays and objects as payloads. -/
theorem HasShape.container {kind : Kind} {payload : Json} (h : HasShape kind payload)
    (hcomposite : kind.isComposite) :
    (∃ items, payload = .array items) ∨ ∃ fields, payload = .object fields := by
  cases h with
  | int n hbounds =>
    cases kind with
    | arr => cases hbounds
    | obj => cases hbounds
    | _ => cases hcomposite
  | arr items => exact .inl ⟨items, rfl⟩
  | obj fields => exact .inr ⟨fields, rfl⟩
  | _ => cases hcomposite

inductive Flaw where
  | notObject
  /-- A member that is neither the tag nor the payload, or one of these twice. -/
  | extraField
  | missingField
  | tagNotString
  | unknownTag
  /-- An array or an object within too many others. -/
  | tooDeep
  /-- A payload of another type than the tag demands. -/
  | wrongShape
  /-- An integer that does not fit the width of its tag. -/
  | outOfWidth
deriving DecidableEq, Repr

/-- A node within so many arrays and objects has this flaw. -/
inductive HasFlaw (enclosing : Nat) : Json → Flaw → Prop where
  | notObject {r : Json} : (∀ members, r ≠ .object members) → HasFlaw enclosing r .notObject
  | extraField {members : List (String × Json)} :
    ¬ (members.map Prod.fst).Subperm ["t", "v"] → HasFlaw enclosing (.object members) .extraField
  | missingField {members : List (String × Json)} {name : String} :
    name ∈ ["t", "v"] → name ∉ members.map Prod.fst →
      HasFlaw enclosing (.object members) .missingField
  | tagNotString {members : List (String × Json)} {tag : Json} :
    ("t", tag) ∈ members → (∀ name, tag ≠ .string name) →
      HasFlaw enclosing (.object members) .tagNotString
  | unknownTag {members : List (String × Json)} {name : String} :
    ("t", .string name) ∈ members → (∀ kind : Kind, kind.tag ≠ name) →
      HasFlaw enclosing (.object members) .unknownTag
  | tooDeep {members : List (String × Json)} {kind : Kind} :
    ("t", .string kind.tag) ∈ members → kind.isComposite → maxDepth ≤ enclosing →
      HasFlaw enclosing (.object members) .tooDeep
  | wrongShape {members : List (String × Json)} {kind : Kind} {payload : Json} :
    ("t", .string kind.tag) ∈ members → ("v", payload) ∈ members → ¬ HasShape kind payload →
      HasFlaw enclosing (.object members) .wrongShape
  | outOfWidth {members : List (String × Json)} {kind : Kind} {low high : Int}
    {n : { n : Int // -0x8000000000000000 ≤ n ∧ n < 0x10000000000000000 }} :
    ("t", .string kind.tag) ∈ members → ("v", .number (.int n)) ∈ members →
      kind.bounds? = some (low, high) → ¬ (low ≤ n.val ∧ n.val < high) →
        HasFlaw enclosing (.object members) .outOfWidth

variable {enclosing : Nat} {path : NodePath} {r : Json} {members : List (String × Json)} {kind : Kind}
  {payload : Json} {flaw : Flaw}

/-- If no field is missing and there is none but these, they are the tag and the payload. -/
theorem exists_pair_of_fields (hextra : ¬ HasFlaw enclosing (.object members) .extraField)
    (hmissing : ¬ HasFlaw enclosing (.object members) .missingField) :
    ∃ x y, members = [("t", x), ("v", y)] ∨ members = [("v", y), ("t", x)] := by
  have hsubperm : (members.map Prod.fst).Subperm ["t", "v"] :=
    Classical.not_not.1 fun h => hextra (.extraField h)
  have hsubset : ["t", "v"] ⊆ members.map Prod.fst := fun name hname =>
    Classical.not_not.1 fun h => hmissing (.missingField hname h)
  have hperm : (members.map Prod.fst).Perm ["t", "v"] :=
    hsubperm.antisymm (List.subperm_of_subset (by decide) hsubset)
  rcases List.perm_pair.1 hperm with hnames | hnames
  · obtain ⟨⟨_, x⟩, _, rfl, rfl, hrest⟩ := List.map_eq_cons_iff.1 hnames
    obtain ⟨⟨_, y⟩, rfl, rfl⟩ := List.map_eq_singleton_iff.1 hrest
    exact ⟨x, y, .inl rfl⟩
  · obtain ⟨⟨_, y⟩, _, rfl, rfl, hrest⟩ := List.map_eq_cons_iff.1 hnames
    obtain ⟨⟨_, x⟩, rfl, rfl⟩ := List.map_eq_singleton_iff.1 hrest
    exact ⟨x, y, .inr rfl⟩

theorem hasFlaw_of_tags_iff (htags : Tags members kind payload) :
    HasFlaw enclosing (.object members) flaw ↔
      (flaw = .tooDeep ∧ kind.isComposite ∧ maxDepth ≤ enclosing) ∨
      (flaw = .wrongShape ∧ ¬ HasShape kind payload) ∨
      (flaw = .outOfWidth ∧ ∃ low high n, payload = .number (.int n) ∧
        kind.bounds? = some (low, high) ∧ ¬ (low ≤ n.val ∧ n.val < high)) := by
  have htag : ∀ tag, ("t", tag) ∈ members ↔ tag = .string kind.tag := by
    intro tag
    rw [htags.mem_iff]
    simp
  have hpayload : ∀ other, ("v", other) ∈ members ↔ other = payload := by
    intro other
    rw [htags.mem_iff]
    simp
  have hnames : (members.map Prod.fst).Perm ["t", "v"] := htags.map Prod.fst
  constructor
  · intro h
    cases h with
    | notObject h => exact absurd rfl (h members)
    | extraField h => exact absurd hnames.subperm h
    | missingField hmem h => exact absurd (hnames.mem_iff.2 hmem) h
    | tagNotString hmem h => exact absurd ((htag _).1 hmem) (h _)
    | unknownTag hmem h =>
      cases (htag _).1 hmem
      exact absurd rfl (h kind)
    | tooDeep hmem hcomposite hdepth =>
      cases Kind.eq_of_tag_eq (string.inj ((htag _).1 hmem))
      exact .inl ⟨rfl, hcomposite, hdepth⟩
    | wrongShape hmem hmem' hshape =>
      cases Kind.eq_of_tag_eq (string.inj ((htag _).1 hmem))
      cases (hpayload _).1 hmem'
      exact .inr (.inl ⟨rfl, hshape⟩)
    | outOfWidth hmem hmem' hbounds hn =>
      cases Kind.eq_of_tag_eq (string.inj ((htag _).1 hmem))
      exact .inr (.inr ⟨rfl, _, _, _, ((hpayload _).1 hmem').symm, hbounds, hn⟩)
  · rintro (⟨rfl, hcomposite, hdepth⟩ | ⟨rfl, hshape⟩ | ⟨rfl, low, high, n, rfl, hbounds, hn⟩)
    · exact .tooDeep ((htag _).2 rfl) hcomposite hdepth
    · exact .wrongShape ((htag _).2 rfl) ((hpayload _).2 rfl) hshape
    · exact .outOfWidth ((htag _).2 rfl) ((hpayload _).2 rfl) hbounds hn

/-- An integer that is a scalar fits the width. -/
theorem IsScalar.bounded {low high : Int}
    {n : { n : Int // -0x8000000000000000 ≤ n ∧ n < 0x10000000000000000 }}
    (h : IsScalar kind (.number (.int n))) (hbounds : kind.bounds? = some (low, high)) :
    low ≤ n.val ∧ n.val < high := by
  cases h with
  | int hbounds' hlow hhigh =>
    cases hbounds.symm.trans hbounds'
    exact ⟨hlow, hhigh⟩
  | float n => cases hbounds

end Json

namespace Value

open Json (Tags HasShape HasFlaw Flaw nodes payloadNodes itemNodes fieldNodes)

variable {path : NodePath} {kind : Kind} {payload r : Json} {members : List (String × Json)}

/-! ### The payload of a scalar -/

/-- A payload of the right type makes a scalar, unless it is an integer that does not fit. -/
theorem ofPayload_of_hasShape (hshape : HasShape kind payload) (hkind : kind.isComposite = false) :
    (∃ v, ofPayload kind payload = .ok v) ∨
      ∃ low high n, payload = .number (.int n) ∧ kind.bounds? = some (low, high) ∧
        ¬ (low ≤ n.val ∧ n.val < high) ∧ ofPayload kind payload = .error (.outOfRange kind n) := by
  cases hshape with
  | @int _ bounds n hbounds =>
    obtain ⟨low, high⟩ := bounds
    have hmake : ofPayload kind (.number (.int n)) =
        (ofInt? n.val kind).elim (.error (.outOfRange kind n)) .ok := by
      cases kind with
      | i32 | u32 | i64 | u64 => rfl
      | _ => cases hbounds
    rw [hmake]
    cases hmade : ofInt? n.val kind with
    | some v => exact .inl ⟨v, rfl⟩
    | none =>
      refine .inr ⟨low, high, n, rfl, hbounds, ?_, rfl⟩
      rintro ⟨hlow, hhigh⟩
      obtain ⟨v, hv⟩ := exists_ofInt? hbounds hlow hhigh
      cases hmade.symm.trans hv
  | float n => exact .inl ⟨_, rfl⟩
  | bool b => exact .inl ⟨_, rfl⟩
  | str s => exact .inl ⟨_, rfl⟩
  | null => exact .inl ⟨_, rfl⟩
  | arr items => cases hkind
  | obj fields => cases hkind

/-- A payload of another type does not, and its type is named. -/
theorem ofPayload_of_not_hasShape (hshape : ¬ HasShape kind payload)
    (hkind : kind.isComposite = false) :
    ofPayload kind payload = .error (.mismatch kind payload.typeName) := by
  unfold ofPayload
  split
  · cases hkind
  · cases hkind
  · exact absurd .null hshape
  · exact absurd (.bool _) hshape
  · exact absurd (.str _) hshape
  · exact absurd (.float _) hshape
  · exact absurd (.int _ rfl) hshape
  · exact absurd (.int _ rfl) hshape
  · exact absurd (.int _ rfl) hshape
  · exact absurd (.int _ rfl) hshape
  · rfl

/-! ### Blame -/

/-- The node is blamed by the fault: it has a flaw, the fault tells its place, and says of an integer
    that it does not fit just if the node has no other flaw. -/
structure Blames (node : NodePath × Json) (fault : DecodeFault) : Prop where
  flawed : ∃ flaw, HasFlaw node.1.length node.2 flaw
  path : fault.path? = some node.1
  overflow_iff : (∃ path kind n, fault = .overflow path kind n) ↔
    ∀ flaw, HasFlaw node.1.length node.2 flaw → flaw = .outOfWidth

theorem Blames.malformed {flaw : Flaw} (h : HasFlaw path.length r flaw) (hne : flaw ≠ .outOfWidth)
    (fault : NodeFault) : Blames (path, r) (.malformed path fault) := by
  refine ⟨⟨flaw, h⟩, rfl, iff_of_false ?_ fun honly => hne (honly flaw h)⟩
  rintro ⟨_, _, _, hfault⟩
  cases hfault

/-- A node that cannot be blamed has no flaw. -/
theorem not_blames_iff {node : NodePath × Json} :
    (∀ fault, ¬ Blames node fault) ↔ ∀ flaw, ¬ HasFlaw node.1.length node.2 flaw := by
  constructor
  · intro h flaw hflaw
    by_cases honly : ∀ other, HasFlaw node.1.length node.2 other → other = .outOfWidth
    · exact h (.overflow node.1 .i32 0) ⟨⟨flaw, hflaw⟩, rfl, iff_of_true ⟨_, _, _, rfl⟩ honly⟩
    · obtain ⟨other, hother⟩ := not_forall.1 honly
      obtain ⟨hother, hne⟩ := Classical.not_imp.1 hother
      exact h _ (.malformed hother hne .tooDeep)
  · rintro h fault ⟨⟨flaw, hflaw⟩, -, -⟩
    exact h flaw hflaw

/-! ### Decoding settles the nodes -/

/-- The members are blamed if they are not a tag and a payload. -/
theorem blames_membersFault
    (h : ∀ x y, members ≠ [("t", x), ("v", y)] ∧ members ≠ [("v", y), ("t", x)]) :
    Blames (path, .object members) (.malformed path (membersFault members)) := by
  by_cases hextra : HasFlaw path.length (.object members) .extraField
  · exact .malformed hextra nofun _
  · by_cases hmissing : HasFlaw path.length (.object members) .missingField
    · exact .malformed hmissing nofun _
    · obtain ⟨x, y, hmembers⟩ := Json.exists_pair_of_fields hextra hmissing
      exact (hmembers.elim (h x y).1 (h x y).2).elim

theorem blames_of_kindOfTag {tag : Json} {fault : NodeFault} (hmem : ("t", tag) ∈ members)
    (h : kindOfTag path.length tag = .error fault) :
    Blames (path, .object members) (.malformed path fault) := by
  unfold kindOfTag at h
  split at h
  · next name =>
    split at h
    · next kind hkind =>
      split at h
      · next hdeep =>
        rw [← Kind.tag_of_ofTag? hkind] at hmem
        exact .malformed (.tooDeep hmem hdeep.1 hdeep.2) nofun _
      · cases h
    · next hnone =>
      refine .malformed (.unknownTag hmem ?_) nofun _
      rintro kind rfl
      cases hnone.symm.trans (Kind.ofTag?_tag kind)
  · next hstring => exact .malformed (.tagNotString hmem hstring) nofun _

theorem not_blames_of_tags (htags : Tags members kind payload)
    (hdepth : kind.isComposite → path.length < maxDepth) (hshape : HasShape kind payload)
    (hfits : ∀ low high n, payload = .number (.int n) → kind.bounds? = some (low, high) →
      low ≤ n.val ∧ n.val < high) (fault : DecodeFault) :
    ¬ Blames (path, .object members) fault := by
  refine not_blames_iff.2 (fun flaw hflaw => ?_) fault
  rcases (Json.hasFlaw_of_tags_iff htags).1 hflaw with ⟨-, hcomposite, hle⟩ | ⟨-, hnot⟩ |
    ⟨-, low, high, n, hn, hbounds, hnot⟩
  · exact absurd (hdepth hcomposite) (Nat.not_lt.2 hle)
  · exact hnot hshape
  · exact hnot (hfits low high n hn hbounds)

theorem blames_outOfWidth {low high : Int}
    {n : { n : Int // -0x8000000000000000 ≤ n ∧ n < 0x10000000000000000 }}
    (htags : Tags members kind (.number (.int n))) (hkind : kind.isComposite = false)
    (hshape : HasShape kind (.number (.int n))) (hbounds : kind.bounds? = some (low, high))
    (hn : ¬ (low ≤ n.val ∧ n.val < high)) :
    Blames (path, .object members) (.overflow path kind n) := by
  have hflaws : ∀ flaw, HasFlaw path.length (.object members) flaw → flaw = .outOfWidth := by
    intro flaw hflaw
    rcases (Json.hasFlaw_of_tags_iff htags).1 hflaw with ⟨-, hcomposite, -⟩ | ⟨-, hnot⟩ | ⟨rfl, -⟩
    · cases hkind.symm.trans hcomposite
    · exact absurd hshape hnot
    · rfl
  refine ⟨⟨.outOfWidth, ?_⟩, rfl, iff_of_true ⟨_, _, _, rfl⟩ hflaws⟩
  exact (Json.hasFlaw_of_tags_iff htags).2 (.inr (.inr ⟨rfl, low, high, n, rfl, hbounds, hn⟩))

theorem settles_decodeScalar (htags : Tags members kind payload)
    (hcomposite : kind.isComposite → ¬ HasShape kind payload) :
    Settles Blames [(path, .object members)] (decodeScalar path kind payload) := by
  have hwrong : ¬ HasShape kind payload → HasFlaw path.length (.object members) .wrongShape :=
    fun hshape => (Json.hasFlaw_of_tags_iff htags).2 (.inr (.inl ⟨rfl, hshape⟩))
  unfold decodeScalar
  cases hkind : kind.isComposite with
  | true => exact .of_refuses (.malformed (hwrong (hcomposite hkind)) nofun _)
  | false =>
    rw [if_neg Bool.false_ne_true]
    by_cases hshape : HasShape kind payload
    · rcases ofPayload_of_hasShape hshape hkind with ⟨v, hv⟩ | ⟨low, high, n, rfl, hbounds, hn, herror⟩
      · rw [hv, Except.mapError_ok]
        refine .of_passes (not_blames_of_tags htags (by simp [hkind]) hshape ?_)
        intro low high n hn hbounds
        subst hn
        exact (isScalar_of_ofPayload hv).1.bounded hbounds
      · rw [herror, Except.mapError_error]
        exact .of_refuses (blames_outOfWidth htags hkind hshape hbounds hn)
    · rw [ofPayload_of_not_hasShape hshape hkind]
      exact .of_refuses (.malformed (hwrong hshape) nofun _)

/-- The payload of a scalar, and one of the wrong type, has no nodes. -/
theorem payloadNodes_eq_nil (h : kind.isComposite → ¬ HasShape kind payload) :
    payloadNodes path (some (.string kind.tag)) payload = [] := by
  have htag : ∀ {other : Kind}, Json.isTag other (some (.string kind.tag)) → kind = other := by
    intro other hother
    exact Kind.eq_of_tag_eq (by simpa [Json.isTag] using hother)
  cases payload with
  | array items =>
    refine if_neg fun hother => ?_
    cases htag hother
    exact h rfl (.arr items)
  | object fields =>
    refine if_neg fun hother => ?_
    cases htag hother
    exact h rfl (.obj fields)
  | _ => rfl

theorem nodes_eq {x y : Json} (h : members = [("t", x), ("v", y)] ∨ members = [("v", y), ("t", x)]) :
    nodes path (.object members) = (path, .object members) :: payloadNodes path (some x) y := by
  rcases h with rfl | rfl <;> simp [nodes, Json.memberNodes, Json.find?]

theorem decodeItems_cons (path : NodePath) (i : Nat) (item : Json) (rest : List Json) :
    decodeItems path i (item :: rest) = decodeAt (path ++ [.index i]) item >>= fun value =>
      (decodeItems path (i + 1) rest).map (value :: ·) := by
  rw [decodeItems]
  cases decodeAt (path ++ [.index i]) item <;> rfl

theorem decodeMembers_cons (path : NodePath) (name : String) (member : Json)
    (rest : List (String × Json)) :
    decodeMembers path ((name, member) :: rest) = decodeAt (path ++ [.field name]) member >>=
      fun value => (decodeMembers path rest).map ((name, value) :: ·) := by
  rw [decodeMembers]
  cases decodeAt (path ++ [.field name]) member <;> rfl

theorem settles_scalar (htags : Tags members kind payload)
    (hcomposite : kind.isComposite → ¬ HasShape kind payload) :
    Settles Blames
      ((path, .object members) :: payloadNodes path (some (.string kind.tag)) payload)
      (decodeScalar path kind payload) := by
  rw [payloadNodes_eq_nil hcomposite]
  exact settles_decodeScalar htags hcomposite

mutual

/-- Decoding a node settles it and the nodes in its payload. -/
theorem settles_decodeAt (r : Json) (path : NodePath) :
    Settles Blames (nodes path r) (decodeAt path r) := by
  cases r with
  | object members =>
    match members with
    | [(a, x), (b, y)] =>
      rw [decodeAt]
      split
      · next hnames =>
        obtain ⟨rfl, rfl⟩ := hnames
        rw [nodes_eq (.inl rfl)]
        split
        · next kind hkind =>
          obtain ⟨rfl, hdepth⟩ := kindOfTag_eq_ok_iff.1 hkind
          exact settles_decodePayload y path (List.Perm.refl _) hdepth
        · next fault hfault => exact .of_refuses (blames_of_kindOfTag (by simp) hfault)
      · next hnames =>
        split
        · next hnames' =>
          obtain ⟨rfl, rfl⟩ := hnames'
          rw [nodes_eq (.inr rfl)]
          split
          · next kind hkind =>
            obtain ⟨rfl, hdepth⟩ := kindOfTag_eq_ok_iff.1 hkind
            exact settles_decodePayload x path (List.Perm.swap ..) hdepth
          · next fault hfault => exact .of_refuses (blames_of_kindOfTag (by simp) hfault)
        · next hnames' =>
          exact .of_refuses (blames_membersFault (by simp_all))
    | [] => exact .of_refuses (blames_membersFault (by simp))
    | [_] => exact .of_refuses (blames_membersFault (by simp))
    | _ :: _ :: _ :: _ => exact .of_refuses (blames_membersFault (by simp))
  | _ => exact .of_refuses (.malformed (.notObject fun _ h => by cases h) nofun _)

theorem settles_decodePayload (payload : Json) (path : NodePath) {kind : Kind}
    {members : List (String × Json)} (htags : Tags members kind payload)
    (hdepth : kind.isComposite → path.length < maxDepth) :
    Settles Blames
      ((path, .object members) :: payloadNodes path (some (.string kind.tag)) payload)
      (decodePayload path kind payload) := by
  cases payload with
  | array items =>
    rw [decodePayload]
    split
    · next hkind =>
      subst hkind
      exact .cons (not_blames_of_tags htags hdepth (.arr items)
          fun _ _ _ h => by cases h)
        ((settles_decodeItems items path 0).map _)
    · next hkind => exact settles_scalar htags fun _ hshape => hkind hshape.eq_arr
  | object fields =>
    rw [decodePayload]
    split
    · next hkind =>
      subst hkind
      exact .cons (not_blames_of_tags htags hdepth (.obj fields)
          fun _ _ _ h => by cases h)
        ((settles_decodeMembers fields path).map _)
    · next hkind => exact settles_scalar htags fun _ hshape => hkind hshape.eq_obj
  | _ =>
    refine settles_scalar htags fun hcomposite hshape => ?_
    rcases hshape.container hcomposite with ⟨items, h⟩ | ⟨fields, h⟩
    · cases h
    · cases h

theorem settles_decodeItems (items : List Json) (path : NodePath) (i : Nat) :
    Settles Blames (itemNodes path i items) (decodeItems path i items) := by
  cases items with
  | nil => exact List.forall_mem_nil _
  | cons item rest =>
    rw [itemNodes, decodeItems_cons]
    exact (settles_decodeAt item _).bind fun _ _ => (settles_decodeItems rest path (i + 1)).map _

theorem settles_decodeMembers (fields : List (String × Json)) (path : NodePath) :
    Settles Blames (fieldNodes path fields) (decodeMembers path fields) := by
  cases fields with
  | nil => exact List.forall_mem_nil _
  | cons field rest =>
    obtain ⟨name, tree⟩ := field
    rw [fieldNodes, decodeMembers_cons]
    exact (settles_decodeAt tree _).bind fun _ _ => (settles_decodeMembers rest path).map _

end

/-- A tree can be decoded if no node of it has a flaw. If one has, the fault is that of the first such
    node: it tells where the node stands, as the steps from the root to it, and says of an integer that
    it does not fit just if that is the only flaw of the node. -/
theorem decode_blames_first_flawed (r : Json) :
    ((∃ v, decode r = .ok v) ↔
      ∀ node ∈ nodes [] r, ∀ flaw, ¬ HasFlaw node.1.length node.2 flaw) ∧
    (∀ fault, decode r = .error fault →
      ∃ before path node after, nodes [] r = before ++ (path, node) :: after ∧
        (∀ earlier ∈ before, ∀ flaw, ¬ HasFlaw earlier.1.length earlier.2 flaw) ∧
        (∃ flaw, HasFlaw path.length node flaw) ∧ fault.path? = some path ∧
        ((∃ path kind n, fault = .overflow path kind n) ↔
          ∀ flaw, HasFlaw path.length node flaw → flaw = .outOfWidth)) ∧
    NodePath.text [] = "$" ∧ (∀ i, NodePath.text [.index i] = "arr[" ++ i.repr ++ "]") ∧
    (∀ name, NodePath.text [.field name] = "obj." ++ name) ∧
    ∀ (path : NodePath) (step : Step), path ≠ [] →
      NodePath.text (path ++ [step]) = path.text ++ "." ++ NodePath.text [step] := by
  have hsettles : Settles Blames (nodes [] r) (decode r) := settles_decodeAt r []
  refine ⟨?_, ?_, rfl, fun _ => rfl, fun _ => rfl, fun _ step h => NodePath.text_concat h step⟩
  · rw [hsettles.exists_ok_iff]
    exact forall₂_congr fun node _ => not_blames_iff
  · intro fault hfault
    rw [hfault] at hsettles
    obtain ⟨before, ⟨path, node⟩, after, hsplit, hbefore, hblames⟩ :=
      FirstRefusal.exists_split hsettles
    exact ⟨before, path, node, after, hsplit, fun earlier hmem => not_blames_iff.1 (hbefore earlier hmem),
      hblames.flawed, hblames.path, hblames.overflow_iff⟩

/-- Of the three elements of an array the second is too great for its tag and the third is no node. The
    fault is that of the second. -/
theorem decode_blames_first_flawed_second :
    let item : Json := Json.node .i32 (.number (.int ⟨0x80000000, by decide⟩))
    let r : Json := Json.node .obj (.object [("a", Json.node .arr
      (.array [Json.node .bool (.bool true), item, .null]))])
    let fault : DecodeFault := .overflow [.field "a", .index 1] .i32 0x80000000
    decode r = .error fault ∧ fault.path?.map NodePath.text = some "obj.a.arr[1]" ∧
      ∃ before after, nodes [] r = before ++ ([.field "a", .index 1], item) :: after ∧
        (∀ earlier ∈ before, ∀ flaw, ¬ HasFlaw earlier.1.length earlier.2 flaw) ∧
        ∀ flaw, HasFlaw 2 item flaw → flaw = .outOfWidth := by
  intro item r fault
  have hdecode : decode r = .error fault := rfl
  obtain ⟨before, path, node, after, hsplit, hbefore, -, hpath, honly⟩ :=
    (decode_blames_first_flawed r).2.1 fault hdecode
  cases hpath
  have hmem : ([.field "a", .index 1], node) ∈ nodes [] r := hsplit ▸ by simp
  have hnode : node = item := by
    simpa [r, nodes, Json.memberNodes, Json.find?, payloadNodes, itemNodes, fieldNodes, Json.node,
      Json.isTag, item] using hmem
  subst hnode
  exact ⟨hdecode, by decide +kernel, before, after, hsplit, hbefore, honly.1 ⟨_, _, _, rfl⟩⟩

end Value

end TypedStore
