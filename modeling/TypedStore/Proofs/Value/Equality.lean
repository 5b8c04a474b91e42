/-
  TypedStore/Proofs/Value/Equality.lean
  =====================================
  **Equality of values.**

  Objects are compared from one side: each member of the one is looked up in the other. If they have as
  many members and repeat no name, no member of the other is left out, so at every name both have
  nothing or both have equal values (`same_obj_iff`). It follows that values are equal just if they agree
  at every place (`same_iff_agrees`), and agreement is told from the nodes alone.

  So equality is symmetric and transitive, fails to be reflexive only where a NaN stands, and does not
  see the order of members, which is not told by the nodes (`equality_up_to_member_order`).
-/
import Mathlib.Data.List.Perm.Subperm
import Mathlib.Logic.Relation
import TypedStore.Proofs.Value.Nodes

namespace Option.Rel

variable {α : Type u} {r s : α → α → Prop} {a b c : Option α} {x : α}

theorem eq_none_iff (h : Rel r a b) : a = .none ↔ b = .none := by
  cases h with
  | some => exact iff_of_false nofun nofun
  | none => exact Iff.rfl

theorem exists_some (h : Rel r a b) (ha : a = .some x) :
    ∃ y, b = .some y ∧ r x y := by
  cases h with
  | some h =>
    obtain rfl := Option.some.inj ha
    exact ⟨_, rfl, h⟩
  | none => cases ha

theorem symm (hr : ∀ x y, r x y → r y x) (h : Rel r a b) : Rel r b a := by
  cases h with
  | some h => exact .some (hr _ _ h)
  | none => exact .none

theorem trans (hr : ∀ x y z, r x y → r y z → r x z) (hab : Rel r a b) (hbc : Rel r b c) :
    Rel r a c := by
  cases hab with
  | some h =>
    cases hbc with
    | some h' => exact .some (hr _ _ _ h h')
  | none => exact hbc

theorem self_iff : Rel r a a ↔ ∀ x, a = .some x → r x x := by
  cases a with
  | none => exact iff_of_true .none nofun
  | some x => simp

theorem congr (h : ∀ x y, a = .some x → b = .some y → (r x y ↔ s x y)) :
    Rel r a b ↔ Rel s a b := by
  constructor
  · rintro (hr | _)
    · exact .some ((h _ _ rfl rfl).1 hr)
    · exact .none
  · rintro (hs | _)
    · exact .some ((h _ _ rfl rfl).2 hs)
    · exact .none

end Option.Rel

namespace TypedStore

namespace Binary64

variable {x y z : Binary64}

theorem sameNumber_iff :
    x.sameNumber y ↔ ¬ x.isNaN ∧ ¬ y.isNaN ∧ (x = y ∨ x.magnitude = 0 ∧ y.magnitude = 0) := by
  simp [sameNumber, and_assoc]

theorem sameNumber_symm (h : x.sameNumber y) : y.sameNumber x := by
  obtain ⟨hx, hy, heq | ⟨hx0, hy0⟩⟩ := sameNumber_iff.1 h
  · exact sameNumber_iff.2 ⟨hy, hx, .inl heq.symm⟩
  · exact sameNumber_iff.2 ⟨hy, hx, .inr ⟨hy0, hx0⟩⟩

theorem sameNumber_trans (hxy : x.sameNumber y) (hyz : y.sameNumber z) : x.sameNumber z := by
  obtain ⟨hx, -, heq⟩ := sameNumber_iff.1 hxy
  obtain ⟨-, hz, heq'⟩ := sameNumber_iff.1 hyz
  refine sameNumber_iff.2 ⟨hx, hz, ?_⟩
  rcases heq with rfl | ⟨hx0, hy0⟩
  · exact heq'
  · rcases heq' with rfl | ⟨-, hz0⟩
    · exact .inr ⟨hx0, hy0⟩
    · exact .inr ⟨hx0, hz0⟩

theorem sameNumber_self_iff : x.sameNumber x ↔ ¬ x.isNaN := by
  rw [sameNumber_iff]
  exact ⟨fun h => h.1, fun h => ⟨h, h, .inl rfl⟩⟩

end Binary64

namespace Value

variable {u v w : Value}

/-! ### Nodes -/

/-- Nodes that equality does not tell apart: floats that are the same number, or else one node. -/
inductive AlikeNode : Value → Value → Prop where
  | number {x y : Binary64} : x.sameNumber y → AlikeNode (.f64 x) (.f64 y)
  | node {v : Value} : v.kind ≠ .f64 → AlikeNode v v

theorem alikeNode_iff :
    AlikeNode v w ↔
      (∃ x y, v = .f64 x ∧ w = .f64 y ∧ x.sameNumber y) ∨ v.kind ≠ .f64 ∧ v = w := by
  constructor
  · rintro (h | hkind)
    · exact .inl ⟨_, _, rfl, rfl, h⟩
    · exact .inr ⟨hkind, rfl⟩
  · rintro (⟨x, y, rfl, rfl, h⟩ | ⟨hkind, rfl⟩)
    · exact .number h
    · exact .node hkind

theorem AlikeNode.symm (h : AlikeNode v w) : AlikeNode w v := by
  cases h with
  | number h => exact .number (Binary64.sameNumber_symm h)
  | node h => exact .node h

theorem AlikeNode.trans (huv : AlikeNode u v) (hvw : AlikeNode v w) : AlikeNode u w := by
  cases huv with
  | number h =>
    cases hvw with
    | number h' => exact .number (Binary64.sameNumber_trans h h')
    | node hkind => exact absurd rfl hkind
  | node => exact hvw

theorem AlikeNode.kind_eq (h : AlikeNode v w) : v.kind = w.kind := by
  cases h with
  | number => rfl
  | node => rfl

theorem alikeNode_self_iff : AlikeNode v v ↔ ∀ x, v = .f64 x → ¬ x.isNaN := by
  constructor
  · rintro h x rfl
    cases h with
    | number h => exact Binary64.sameNumber_self_iff.1 h
    | node hkind => exact absurd rfl hkind
  · intro h
    cases v with
    | f64 x => exact .number (Binary64.sameNumber_self_iff.2 (h x rfl))
    | _ => exact .node nofun

/-- The values have nodes at the same places, and alike ones. -/
def Agrees (v w : Value) : Prop :=
  ∀ path, Option.Rel AlikeNode (v.node? path) (w.node? path)

/-! ### Equality by parts -/

theorem sameItems_iff {xs ys : List Value} :
    sameItems xs ys ↔ ∀ i : Nat, Option.Rel (fun x y => same x y) xs[i]? ys[i]? := by
  induction xs generalizing ys with
  | nil =>
    cases ys with
    | nil => simp [sameItems]
    | cons y ys =>
      refine iff_of_false (by simp [sameItems]) fun h => ?_
      cases h 0
  | cons x xs ih =>
    cases ys with
    | nil =>
      refine iff_of_false (by simp [sameItems]) fun h => ?_
      cases h 0
    | cons y ys =>
      rw [sameItems, Bool.and_eq_true, ih]
      constructor
      · rintro ⟨hhead, hrest⟩ i
        cases i with
        | zero => exact .some hhead
        | succ i => exact hrest i
      · intro h
        refine ⟨?_, fun i => h (i + 1)⟩
        cases h 0 with
        | some hhead => exact hhead

theorem sameMembers_iff {ms ns : List (String × Value)} :
    sameMembers ms ns ↔ ∀ m ∈ ms, ∃ w, Json.find? m.1 ns = some w ∧ same m.2 w := by
  induction ms with
  | nil => simp [sameMembers]
  | cons m ms ih =>
    obtain ⟨name, value⟩ := m
    rw [sameMembers, Bool.and_eq_true, ih, List.forall_mem_cons]
    cases Json.find? name ns <;> simp

/-- Objects that repeat no name are equal just if at each name both have nothing, or equal values. -/
theorem same_obj_iff {ms ns : List (String × Value)} (hms : (ms.map (·.1)).Nodup)
    (hns : (ns.map (·.1)).Nodup) :
    same (.obj ms) (.obj ns) ↔
      ∀ name, Option.Rel (fun v w => same v w) (Json.find? name ms) (Json.find? name ns) := by
  rw [same, Bool.and_eq_true, decide_eq_true_eq, sameMembers_iff]
  constructor
  · rintro ⟨hlength, hfound⟩ name
    have hsubset : ms.map (·.1) ⊆ ns.map (·.1) := by
      intro name hname
      obtain ⟨m, hm, rfl⟩ := List.mem_map.1 hname
      obtain ⟨w, hw, -⟩ := hfound m hm
      exact List.mem_map_of_mem (f := (·.1)) (Json.mem_of_find?_eq_some hw)
    -- As many names, all different and all found: none is left over on the other side.
    have hperm : (ms.map (·.1)).Perm (ns.map (·.1)) :=
      (List.subperm_of_subset hms hsubset).perm_of_length_le (by simp [hlength])
    cases h : Json.find? name ms with
    | none =>
      rw [Json.find?_eq_none_iff, hperm.mem_iff, ← Json.find?_eq_none_iff] at h
      rw [h]
      exact .none
    | some v =>
      obtain ⟨w, hw, hsame⟩ := hfound _ (Json.mem_of_find?_eq_some h)
      rw [hw]
      exact .some hsame
  · intro h
    have hperm : (ms.map (·.1)).Perm (ns.map (·.1)) := by
      rw [List.perm_ext_iff_of_nodup hms hns]
      intro name
      rw [← not_iff_not, ← Json.find?_eq_none_iff, ← Json.find?_eq_none_iff]
      exact (h name).eq_none_iff
    refine ⟨by simpa using hperm.length_eq, fun m hm => ?_⟩
    exact (h m.1).exists_some ((Json.find?_eq_some_iff hms).2 hm)

-- A name that is repeated on the left is found twice on the right, and equality is one-sided.
example :
    same (.obj [("a", .null), ("a", .null)]) (.obj [("a", .null), ("b", .null)]) ∧
      ¬ same (.obj [("a", .null), ("b", .null)]) (.obj [("a", .null), ("a", .null)]) := by
  decide +kernel

theorem same_scalar_iff (hv : v.kind.isComposite = false) : same v w ↔ AlikeNode v w := by
  cases v with
  | arr items => cases hv
  | obj members => cases hv
  | _ => cases w <;> simp [same, alikeNode_iff, kind]

/-- Values are equal just if they are alike as nodes, and at each step both have nothing, or equal
    parts. -/
theorem same_iff_parts (hv : v.Distinct) (hw : w.Distinct) :
    same v w ↔ AlikeNode v.bare w.bare ∧
      ∀ step, Option.Rel (fun p q => same p q) (v.part? step) (w.part? step) := by
  cases v with
  | arr xs =>
    cases w with
    | arr ys =>
      rw [same, sameItems_iff]
      constructor
      · intro h
        refine ⟨.node nofun, fun step => ?_⟩
        cases step with
        | index i => exact h i
        | field name => exact .none
      · rintro ⟨-, h⟩ i
        exact h (.index i)
    | _ => simp [same, alikeNode_iff, bare]
  | obj ms =>
    cases w with
    | obj ns =>
      rw [same_obj_iff hv.1 hw.1]
      constructor
      · intro h
        refine ⟨.node nofun, fun step => ?_⟩
        cases step with
        | index i => exact .none
        | field name => exact h name
      · rintro ⟨-, h⟩ name
        exact h (.field name)
    | _ => simp [same, alikeNode_iff, bare]
  | _ =>
    rw [same_scalar_iff rfl]
    cases w <;> simp [alikeNode_iff, bare, part?, kind]

/-! ### Equality by places -/

theorem rel_agrees_iff {a b : Option Value} :
    Option.Rel Agrees a b ↔
      ∀ path, Option.Rel AlikeNode (a.bind (node? path)) (b.bind (node? path)) := by
  cases a with
  | none =>
    cases b with
    | none => exact iff_of_true .none fun _ => .none
    | some q => exact iff_of_false nofun fun h => nomatch h []
  | some p =>
    cases b with
    | none => exact iff_of_false nofun fun h => nomatch h []
    | some q => exact Option.rel_some_some

theorem agrees_iff_parts :
    Agrees v w ↔ AlikeNode v.bare w.bare ∧
      ∀ step, Option.Rel Agrees (v.part? step) (w.part? step) := by
  constructor
  · intro h
    exact ⟨Option.rel_some_some.1 (h []), fun step =>
      rel_agrees_iff.2 fun path => h (step :: path)⟩
  · rintro ⟨hroot, hparts⟩ path
    cases path with
    | nil => exact .some hroot
    | cons step path => exact rel_agrees_iff.1 (hparts step) path

/-- Values are equal just if they have nodes at the same places, and alike ones. -/
theorem same_iff_agrees (hv : v.Distinct) (hw : w.Distinct) : same v w ↔ Agrees v w := by
  induction v using part_induction generalizing w with
  | parts v ih =>
    rw [same_iff_parts hv hw, agrees_iff_parts]
    refine and_congr_right fun _ => forall_congr' fun step => ?_
    exact Option.Rel.congr fun p q hp hq => ih step p hp (hv.part hp) (hw.part hq)

theorem Agrees.symm (h : Agrees v w) : Agrees w v :=
  fun path => (h path).symm fun _ _ => AlikeNode.symm

theorem Agrees.trans (huv : Agrees u v) (hvw : Agrees v w) : Agrees u w :=
  fun path => (huv path).trans (fun _ _ _ => AlikeNode.trans) (hvw path)

theorem Agrees.kind_eq (h : Agrees v w) : v.kind = w.kind := by
  have hroot := (Option.rel_some_some.1 (h [])).kind_eq
  rwa [kind_bare, kind_bare] at hroot

theorem agrees_self_iff (hv : v.Distinct) : Agrees v v ↔ ∀ x ∈ v.floats, ¬ x.isNaN := by
  constructor
  · intro h x hx
    obtain ⟨path, hpath⟩ := (mem_floats_iff hv).1 hx
    exact alikeNode_self_iff.1 (Option.Rel.self_iff.1 (h path) _ hpath) x rfl
  · intro h path
    refine Option.Rel.self_iff.2 fun node hnode => alikeNode_self_iff.2 ?_
    rintro x rfl
    exact h x ((mem_floats_iff hv).2 ⟨path, hnode⟩)

/-! ### The order of members -/

/-- One object somewhere in the value has its members in another order. -/
inductive Reorders : Value → Value → Prop where
  | here {ms ns : List (String × Value)} : ms.Perm ns → Reorders (.obj ms) (.obj ns)
  | item {before after : List Value} {v w : Value} : Reorders v w →
    Reorders (.arr (before ++ v :: after)) (.arr (before ++ w :: after))
  | member {before after : List (String × Value)} {name : String} {v w : Value} : Reorders v w →
    Reorders (.obj (before ++ (name, v) :: after)) (.obj (before ++ (name, w) :: after))

/-- Any number of objects anywhere in the value have their members in another order. -/
def Reordered : Value → Value → Prop := Relation.ReflTransGen Reorders

theorem Reorders.distinct (h : Reorders v w) (hv : v.Distinct) : w.Distinct := by
  induction h with
  | here hperm =>
    refine ⟨(hperm.map _).nodup_iff.1 hv.1, distinctMembers_iff.2 fun m hm => ?_⟩
    exact distinctMembers_iff.1 hv.2 m (hperm.mem_iff.2 hm)
  | item _ ih =>
    obtain ⟨hbefore, hrest⟩ := List.forall_mem_append.1 (distinctItems_iff.1 hv)
    obtain ⟨hpart, hafter⟩ := List.forall_mem_cons.1 hrest
    exact distinctItems_iff.2
      (List.forall_mem_append.2 ⟨hbefore, List.forall_mem_cons.2 ⟨ih hpart, hafter⟩⟩)
  | member _ ih =>
    obtain ⟨hnames, hmembers⟩ := hv
    obtain ⟨hbefore, hrest⟩ := List.forall_mem_append.1 (distinctMembers_iff.1 hmembers)
    obtain ⟨hpart, hafter⟩ := List.forall_mem_cons.1 hrest
    refine ⟨by simpa using hnames, distinctMembers_iff.2 ?_⟩
    exact List.forall_mem_append.2 ⟨hbefore, List.forall_mem_cons.2 ⟨ih hpart, hafter⟩⟩

theorem Reorders.bare_eq (h : Reorders v w) : v.bare = w.bare := by
  cases h <;> rfl

/-- Each step leads to the same part as before, or to one in which an object is reordered. -/
theorem Reorders.part_cases (h : Reorders v w) (hv : v.Distinct) (step : Step) :
    v.part? step = w.part? step ∨
      ∃ p q, v.part? step = some p ∧ w.part? step = some q ∧ Reorders p q := by
  cases h with
  | here hperm =>
    left
    cases step with
    | index i => rfl
    | field name => exact Json.find?_perm hperm hv.1 name
  | @item before after p q h =>
    cases step with
    | index i =>
      rw [part?, part?]
      rcases Nat.lt_trichotomy i before.length with hlt | rfl | hgt
      · left
        rw [List.getElem?_append_left hlt, List.getElem?_append_left hlt]
      · exact .inr ⟨p, q, by simp, by simp, h⟩
      · obtain ⟨k, rfl⟩ := Nat.exists_eq_add_of_lt hgt
        left
        simp [List.getElem?_append, Nat.add_assoc]
    | field name => exact .inl rfl
  | @member before after name p q h =>
    cases step with
    | index i => exact .inl rfl
    | field other =>
      rw [part?, part?, Json.find?_append, Json.find?_append, Json.find?, Json.find?]
      cases Json.find? other before with
      | some _ => exact .inl rfl
      | none =>
        by_cases hname : name = other
        · rw [if_pos hname, if_pos hname]
          exact .inr ⟨p, q, rfl, rfl, h⟩
        · rw [if_neg hname, if_neg hname]
          exact .inl rfl

/-- The nodes stay at their places. -/
theorem Reorders.node?_eq (h : Reorders v w) (hv : v.Distinct) (path : NodePath) :
    v.node? path = w.node? path := by
  induction path generalizing v w with
  | nil => rw [node?, node?, h.bare_eq]
  | cons step path ih =>
    rw [node?, node?]
    rcases h.part_cases hv step with heq | ⟨p, q, hp, hq, hpq⟩
    · rw [heq]
    · rw [hp, hq]
      exact ih hpq (hv.part hp)

theorem Reordered.distinct (h : Reordered v w) (hv : v.Distinct) : w.Distinct := by
  induction h with
  | refl => exact hv
  | tail _ hstep ih => exact hstep.distinct ih

theorem Reordered.node?_eq (h : Reordered v w) (hv : v.Distinct) (path : NodePath) :
    v.node? path = w.node? path := by
  induction h with
  | refl => rfl
  | tail hsteps hstep ih => rw [ih, hstep.node?_eq (Reordered.distinct hsteps hv)]

theorem Reordered.same_eq (h : Reordered v w) (hv : v.Distinct) (hu : u.Distinct) :
    same w u = same v u := by
  rw [Bool.eq_iff_iff, same_iff_agrees (h.distinct hv) hu, same_iff_agrees hv hu]
  exact forall_congr' fun path => by rw [h.node?_eq hv path]

/-- Values that repeat no name are equal just if they agree at every place. So equality is symmetric and
    transitive, and reflexive just at the values in which no NaN stands at any depth. It holds only
    within a kind, and reordering the members of any objects in a value does not change to which values
    it is equal. -/
theorem equality_up_to_member_order {a b c : Value} (ha : a.Distinct) (hb : b.Distinct)
    (hc : c.Distinct) :
    (a == b ↔ Agrees a b) ∧
    (a == b) = (b == a) ∧
    (a == b → b == c → a == c) ∧
    (a == a ↔ ∀ x ∈ a.floats, ¬ x.isNaN) ∧
    (a.kind ≠ b.kind → (a == b) = false) ∧
    ∀ a', Reordered a a' → a'.Distinct ∧ (a' == b) = (a == b) := by
  have hab : a == b ↔ Agrees a b := same_iff_agrees ha hb
  have hba : b == a ↔ Agrees b a := same_iff_agrees hb ha
  have hbc : b == c ↔ Agrees b c := same_iff_agrees hb hc
  have hac : a == c ↔ Agrees a c := same_iff_agrees ha hc
  have haa : a == a ↔ Agrees a a := same_iff_agrees ha ha
  refine ⟨hab, ?_, ?_, ?_, ?_, ?_⟩
  · rw [Bool.eq_iff_iff, hab, hba]
    exact ⟨Agrees.symm, Agrees.symm⟩
  · rw [hab, hbc, hac]
    exact Agrees.trans
  · rw [haa, agrees_self_iff ha]
  · intro hkind
    rw [Bool.eq_false_iff, Ne, hab]
    exact fun h => hkind h.kind_eq
  · intro a' h
    exact ⟨h.distinct ha, h.same_eq ha hb⟩

/-- Both an object and one within it are turned round, the zeros have different signs, and a NaN deep in
    a value keeps it from being equal to itself. -/
theorem equality_up_to_member_order_nested :
    let item (x : Binary64) : Value := .obj [("x", .f64 x), ("y", .arr [.null])]
    let itemTurned (x : Binary64) : Value := .obj [("y", .arr [.null]), ("x", .f64 x)]
    let a : Value := .obj [("id", .i32 7), ("at", item ⟨0x8000000000000000⟩)]
    let b : Value := .obj [("at", itemTurned ⟨0⟩), ("id", .i32 7)]
    let c : Value := .obj [("at", item ⟨0⟩), ("id", .i32 7)]
    let aTurned : Value := .obj [("at", itemTurned ⟨0x8000000000000000⟩), ("id", .i32 7)]
    let n : Value := .arr [item ⟨0x7FF8000000000000⟩]
    (a.Distinct ∧ b.Distinct ∧ c.Distinct ∧ n.Distinct ∧ Reordered a aTurned) ∧
      (a == b ∧ b == a ∧ a == c ∧ a == a ∧ aTurned == b) ∧ ¬ (n == n) ∧ (n == a) = false := by
  intro item itemTurned a b c aTurned n
  have ha : a.Distinct := by simp [a, item, Distinct, DistinctItems, DistinctMembers]
  have hb : b.Distinct := by simp [b, itemTurned, Distinct, DistinctItems, DistinctMembers]
  have hc : c.Distinct := by simp [c, item, Distinct, DistinctItems, DistinctMembers]
  have hn : n.Distinct := by simp [n, item, Distinct, DistinctItems, DistinctMembers]
  have hturned : Reordered a aTurned :=
    Relation.ReflTransGen.tail
      (.single (@Reorders.member [("id", .i32 7)] [] "at" _ _ (.here (.swap ..))))
      (.here (.swap ..))
  have hab : a == b := by decide +kernel
  have hbc : b == c := by decide +kernel
  obtain ⟨-, hsymm, htrans, hrefl, -, hreordered⟩ := equality_up_to_member_order ha hb hc
  obtain ⟨-, -, -, hself, hkind, -⟩ := equality_up_to_member_order hn ha ha
  refine ⟨⟨ha, hb, hc, hn, hturned⟩, ⟨hab, hsymm ▸ hab, htrans hab hbc, ?_, ?_⟩, ?_, ?_⟩
  · exact hrefl.2 (by decide +kernel)
  · exact (hreordered aTurned hturned).2 ▸ hab
  · rw [hself]
    decide +kernel
  · exact hkind (by decide +kernel)

end Value

end TypedStore
