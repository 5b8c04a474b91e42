/-
  TypedStore/Proofs/Codec/Sites.lean
  ==================================
  **One node of a text, and the text around it.**

  A `Site` is what stands before and after a node inside tagged arrays and objects that are otherwise
  well formed. The strings may be escaped and the numbers spelled in any way: of the other nodes only
  what they are read as is asked (`Spelled.WellFormed`). Reading comes to the node with two containers
  open for each step of its path, and what the whole is decoded to is what the node is, with the rest
  of the value around it (`Site.reads`).

  Hence what becomes of an integer of any size as the payload of a node, by itself
  (`decodeText_integerNode`) and anywhere in a text (`decodeText_writeInt`). One that fits the width
  of its tag is read; one of sixty-four bits that does not is an overflow. A wider one has become a
  float by the time its tag is looked at and is reported as the wrong type of payload, or, if no float
  is near it, as no JSON.
-/
import TypedStore.Proofs.Codec.Decoding
import TypedStore.Proofs.Codec.Magnitude

namespace TypedStore.Json

/-! ### Tokens that are read as a tree -/

/-- Inside so many open containers the tokens are read as the tree, whatever follows them. -/
def ReadsAs (depth : Nat) (tokens : List Token) (j : Json) : Prop :=
  ∀ stack rest, stack.length = depth →
    strict.run (.value stack) (tokens ++ rest) = strict.run (.done j stack) rest

/-- The tokens of a tree are read as it. -/
theorem readsAs_asTokens {j : Json} {depth : Nat} (hdistinct : j.Distinct)
    (hopen : depth + nesting j ≤ maxOpen) : ReadsAs depth (asTokens j) j := by
  rintro stack rest rfl
  exact run_asTokens j hdistinct stack hopen rest

/-- The first element of an array is read as one after a comma. -/
theorem ReadsAs.firstItem {tokens : List Token} {j : Json} {stack : List (Frame Json)}
    (h : ReadsAs (stack.length + 1) tokens j) (rest : List Token) :
    strict.run (.firstItem stack) (tokens ++ rest) =
      strict.run (.value (.array [] :: stack)) (tokens ++ rest) := by
  have hread := h (.array [] :: stack) [] rfl
  cases tokens with
  | nil => cases hread
  | cons token more =>
    -- No value begins with the bracket that would end the array.
    have hend : token ≠ .endArray := by
      rintro rfl
      cases hread
    rw [List.cons_append, Build.run, Build.run, Build.step_firstItem _ hend]
    rfl

/-- The tokens of a node before its payload, and those after it. -/
inductive Wraps (kind : Kind) : List Token → List Token → Prop where
  | tagFirst {t tag v : List Char} : stringOfBody? t = some "t" →
      stringOfBody? tag = some kind.tag → stringOfBody? v = some "v" →
      Wraps kind [.beginObject, .string t, .colon, .string tag, .comma, .string v, .colon]
        [.endObject]
  | payloadFirst {t tag v : List Char} : stringOfBody? t = some "t" →
      stringOfBody? tag = some kind.tag → stringOfBody? v = some "v" →
      Wraps kind [.beginObject, .string v, .colon]
        [.comma, .string t, .colon, .string tag, .endObject]

/-- Reading a node opens one container before the payload and closes it behind. -/
theorem Wraps.reads {kind : Kind} {front back : List Token} (h : Wraps kind front back) :
    ∃ frame, (∃ more, front = .beginObject :: more) ∧
      (∀ stack rest, stack.length + 1 ≤ maxOpen →
        strict.run (.value stack) (front ++ rest) = strict.run (.value (frame :: stack)) rest) ∧
      ∀ payload, ∃ members, Tags members kind payload ∧ ∀ stack rest,
        strict.run (.done payload (frame :: stack)) (back ++ rest) =
          strict.run (.done (.object members) stack) rest := by
  have hnew (name : String) : find? name ([] : List (String × Json)) = none := rfl
  cases h with
  | tagFirst ht htag hv =>
    refine ⟨.object [("t", .string kind.tag)] "v", ⟨_, rfl⟩, ?_, ?_⟩
    · intro stack rest hopen
      simp only [List.cons_append, List.nil_append]
      rw [run_beginObject hopen]
      refine (run_nameBody ht (hnew "t")).trans ?_
      rw [run_body htag]
      exact run_nameBody hv rfl
    · intro payload
      exact ⟨_, List.Perm.refl _, fun stack rest => rfl⟩
  | payloadFirst ht htag hv =>
    refine ⟨.object [] "v", ⟨_, rfl⟩, ?_, ?_⟩
    · intro stack rest hopen
      simp only [List.cons_append, List.nil_append]
      rw [run_beginObject hopen]
      exact run_nameBody hv (hnew "v")
    · intro payload
      refine ⟨[("v", payload), ("t", .string kind.tag)], List.Perm.swap .., ?_⟩
      intro stack rest
      simp only [List.cons_append, List.nil_append]
      change strict.run (.nextName [("v", payload)] stack) _ = _
      rw [run_nameBody ht rfl, run_body htag]
      rfl

/-! ### Nodes beside the node -/

/-- A node of a text: its tokens, the tree that they are read as, and its value. -/
structure Spelled where
  tokens : List Token
  tree : Json
  value : Value

/-- The node may stand within so many arrays and objects. Each of them is two containers of text. -/
structure Spelled.WellFormed (enclosing : Nat) (s : Spelled) : Prop where
  reads : ReadsAs (2 * enclosing) s.tokens s.tree
  decodes : ∀ path : NodePath, path.length = enclosing →
    Value.decodeAt path s.tree = .ok s.value

/-- A member of an object of nodes, `body` being its name as it is written. -/
structure Field where
  body : List Char
  name : String
  node : Spelled

structure Field.WellFormed (enclosing : Nat) (f : Field) : Prop where
  names : stringOfBody? f.body = some f.name
  node : f.node.WellFormed enclosing

namespace Field

def tokens (f : Field) : List Token := .string f.body :: .colon :: f.node.tokens

def tree (f : Field) : String × Json := (f.name, f.node.tree)

def value (f : Field) : String × Value := (f.name, f.node.value)

end Field

section Siblings

variable {stack : List (Frame Json)} {enclosing : Nat} {j : Json}

theorem run_itemsBefore {before : List Spelled} (h : ∀ s ∈ before, s.WellFormed enclosing)
    (hstack : stack.length + 1 = 2 * enclosing) (read : List Json) (rest : List Token) :
    strict.run (.value (.array read :: stack))
        (before.flatMap (fun s => s.tokens ++ [.comma]) ++ rest) =
      strict.run (.value (.array ((before.map (·.tree)).reverse ++ read) :: stack)) rest := by
  induction before generalizing read with
  | nil => rfl
  | cons s before ih =>
    rw [List.flatMap_cons, List.append_assoc, List.append_assoc,
      (h s List.mem_cons_self).reads _ _ (by rw [List.length_cons, hstack])]
    refine (ih (fun s hs => h s (List.mem_cons_of_mem _ hs)) (s.tree :: read)).trans ?_
    rw [List.map_cons, List.reverse_cons, List.append_assoc, List.singleton_append]

theorem run_itemsAfter {after : List Spelled} (h : ∀ s ∈ after, s.WellFormed enclosing)
    (hstack : stack.length + 1 = 2 * enclosing) (read : List Json) (rest : List Token) :
    strict.run (.done j (.array read :: stack))
        (after.flatMap (fun s => .comma :: s.tokens) ++ .endArray :: rest) =
      strict.run (.done (.array (read.reverse ++ j :: after.map (·.tree))) stack) rest := by
  induction after generalizing read j with
  | nil =>
    change strict.run (.done (.array (j :: read).reverse) stack) rest = _
    rw [List.reverse_cons, List.map_nil]
  | cons s after ih =>
    rw [List.flatMap_cons, List.append_assoc, List.cons_append]
    change strict.run (.value (.array (j :: read) :: stack)) _ = _
    rw [(h s List.mem_cons_self).reads _ _ (by rw [List.length_cons, hstack]),
      ih (fun s hs => h s (List.mem_cons_of_mem _ hs)) (j :: read), List.reverse_cons,
      List.append_assoc, List.singleton_append, List.map_cons]

/-- An array is read up to one of its elements. -/
theorem run_arrayBefore {before : List Spelled} (h : ∀ s ∈ before, s.WellFormed enclosing)
    (hstack : stack.length + 1 = 2 * enclosing) (hopen : stack.length + 1 ≤ maxOpen)
    (rest : List Token) :
    strict.run (.value stack) (.beginArray ::
        (before.flatMap (fun s => s.tokens ++ [.comma]) ++ .beginObject :: rest)) =
      strict.run (.value (.array (before.map (·.tree)).reverse :: stack))
        (.beginObject :: rest) := by
  have hitems := run_itemsBefore h hstack [] (.beginObject :: rest)
  rw [run_beginArray hopen, ← List.append_nil (before.map (·.tree)).reverse, ← hitems]
  cases before with
  | nil => rfl
  | cons s before =>
    have hreads := (h s List.mem_cons_self).reads
    rw [← hstack] at hreads
    rw [List.flatMap_cons, List.append_assoc, List.append_assoc]
    exact hreads.firstItem _

theorem run_field {f : Field} (h : f.WellFormed enclosing)
    (hstack : stack.length + 1 = 2 * enclosing) {read : List (String × Json)}
    (hnew : find? f.name read = none) (rest : List Token) :
    strict.run (.nextName read stack) (f.tokens ++ rest) =
      strict.run (.done f.node.tree (.object read f.name :: stack)) rest := by
  rw [Field.tokens, List.cons_append, List.cons_append, run_nameBody h.names hnew]
  exact h.node.reads _ _ (by rw [List.length_cons, hstack])

theorem run_fieldsBefore {before : List Field} (h : ∀ f ∈ before, f.WellFormed enclosing)
    (hstack : stack.length + 1 = 2 * enclosing) {read : List (String × Json)}
    (hnames : (read.map (·.1) ++ before.map (·.name)).Nodup) (rest : List Token) :
    strict.run (.nextName read stack)
        (before.flatMap (fun f => f.tokens ++ [.comma]) ++ rest) =
      strict.run (.nextName (read ++ before.map Field.tree) stack) rest := by
  induction before generalizing read with
  | nil => rw [List.map_nil, List.append_nil, List.flatMap_nil, List.nil_append]
  | cons f before ih =>
    obtain ⟨hnew, hset⟩ := new_of_nodup hnames f.node.tree
    have hmore : ((read ++ [f.tree]).map (·.1) ++ before.map (·.name)).Nodup := by
      rwa [List.map_append, List.append_assoc]
    rw [List.flatMap_cons, List.append_assoc, List.append_assoc,
      run_field (h f List.mem_cons_self) hstack hnew]
    change strict.run (.nextName (setMember f.name f.node.tree read) stack) _ = _
    rw [hset]
    refine (ih (fun f hf => h f (List.mem_cons_of_mem _ hf)) hmore).trans ?_
    rw [List.map_cons, List.append_assoc, List.singleton_append]

theorem run_fieldsAfter {after : List Field} (h : ∀ f ∈ after, f.WellFormed enclosing)
    (hstack : stack.length + 1 = 2 * enclosing) {read : List (String × Json)} {name : String}
    (hnames : (read.map (·.1) ++ name :: after.map (·.name)).Nodup) (rest : List Token) :
    strict.run (.done j (.object read name :: stack))
        (after.flatMap (fun f => .comma :: f.tokens) ++ .endObject :: rest) =
      strict.run (.done (.object (read ++ (name, j) :: after.map Field.tree)) stack) rest := by
  obtain ⟨-, hset⟩ := new_of_nodup hnames j
  induction after generalizing read name j with
  | nil =>
    change strict.run (.done (.object (setMember name j read)) stack) rest = _
    rw [hset, List.map_nil]
  | cons f after ih =>
    have hmore : ((read ++ [(name, j)]).map (·.1) ++ f.name :: after.map (·.name)).Nodup := by
      rwa [List.map_append, List.append_assoc]
    obtain ⟨hnew, hset'⟩ := new_of_nodup hmore f.node.tree
    rw [List.flatMap_cons, List.append_assoc, List.cons_append]
    change strict.run (.nextName (setMember name j read) stack) _ = _
    rw [hset, run_field (h f List.mem_cons_self) hstack hnew,
      ih (fun f hf => h f (List.mem_cons_of_mem _ hf)) hmore hset', List.append_assoc]
    rfl

/-- An object is read up to one of its members. -/
theorem run_objectBefore {before : List Field} (h : ∀ f ∈ before, f.WellFormed enclosing)
    (hstack : stack.length + 1 = 2 * enclosing) (hopen : stack.length + 1 ≤ maxOpen)
    {body : List Char} {name : String} (hbody : stringOfBody? body = some name)
    {more : List String} (hnames : (before.map (·.name) ++ name :: more).Nodup)
    (rest : List Token) :
    strict.run (.value stack) (.beginObject ::
        (before.flatMap (fun f => f.tokens ++ [.comma]) ++ .string body :: .colon :: rest)) =
      strict.run (.value (.object (before.map Field.tree) name :: stack)) rest := by
  have hbefore : (List.map (·.1) ([] : List (String × Json)) ++ before.map (·.name)).Nodup :=
    (List.nodup_append.1 hnames).1
  have hread : ((before.map Field.tree).map (·.1) ++ name :: more).Nodup := by
    rwa [List.map_map]
  have hfields := run_fieldsBefore h hstack hbefore (.string body :: .colon :: rest)
  rw [List.nil_append, run_nameBody hbody (new_of_nodup hread .null).1] at hfields
  rw [run_beginObject hopen, ← hfields]
  cases before with
  | nil => rfl
  | cons f before => rfl

end Siblings

end TypedStore.Json

namespace TypedStore.Value

open Json

/-! ### A site -/

/-- Where a node stands in a text: its path, the tokens before it and after it, and the value that the
    whole has with each value of the node. -/
inductive Site : NodePath → List Token → List Token → (Value → Value) → Prop where
  | root : Site [] [] [] id
  | item {path : NodePath} {front back nodeFront nodeBack : List Token} {fill : Value → Value}
    {before after : List Spelled} : Site path front back fill → path.length < maxDepth →
      Wraps .arr nodeFront nodeBack → (∀ s ∈ before, s.WellFormed (path.length + 1)) →
      (∀ s ∈ after, s.WellFormed (path.length + 1)) →
      Site (path ++ [.index before.length])
        (front ++ (nodeFront ++ .beginArray :: before.flatMap (fun s => s.tokens ++ [.comma])))
        (after.flatMap (fun s => .comma :: s.tokens) ++ .endArray :: (nodeBack ++ back))
        (fun v => fill (.arr (before.map (·.value) ++ v :: after.map (·.value))))
  | field {path : NodePath} {front back nodeFront nodeBack : List Token} {fill : Value → Value}
    {before after : List Field} {body : List Char} {name : String} :
      Site path front back fill → path.length < maxDepth → Wraps .obj nodeFront nodeBack →
      (∀ f ∈ before, f.WellFormed (path.length + 1)) →
      (∀ f ∈ after, f.WellFormed (path.length + 1)) → stringOfBody? body = some name →
      (before.map (·.name) ++ name :: after.map (·.name)).Nodup →
      Site (path ++ [.field name])
        (front ++ (nodeFront ++ .beginObject ::
          (before.flatMap (fun f => f.tokens ++ [.comma]) ++ [.string body, .colon])))
        (after.flatMap (fun f => .comma :: f.tokens) ++ .endObject :: (nodeBack ++ back))
        (fun v => fill (.obj (before.map Field.value ++ (name, v) :: after.map Field.value)))

theorem Site.length_le {path : NodePath} {front back : List Token} {fill : Value → Value}
    (h : Site path front back fill) : path.length ≤ maxDepth := by
  cases h with
  | root => exact Nat.zero_le _
  | item _ hdepth | field _ hdepth => simpa using hdepth

/-- As deep as nodes may be nested the reader opens their containers, and those of one more node. -/
theorem two_mul_lt_maxOpen {enclosing : Nat} (h : enclosing ≤ maxDepth) :
    2 * enclosing < maxOpen := by
  simp only [maxDepth] at h
  simp only [maxOpen]
  omega

/-! ### Decoding around a node -/

theorem decodeItems_wellFormed {items : List Spelled} {path : NodePath}
    (h : ∀ s ∈ items, s.WellFormed (path.length + 1)) (i : Nat) :
    decodeItems path i (items.map (·.tree)) = .ok (items.map (·.value)) := by
  induction items generalizing i with
  | nil => rfl
  | cons s items ih =>
    have hhead := (h s List.mem_cons_self).decodes (path ++ [.index i]) (by simp)
    simp only [List.map_cons, decodeItems, hhead,
      ih (fun s hs => h s (List.mem_cons_of_mem _ hs)) (i + 1)]
    rfl

theorem decodeItems_around {before after : List Spelled} {path : NodePath}
    (hbefore : ∀ s ∈ before, s.WellFormed (path.length + 1))
    (hafter : ∀ s ∈ after, s.WellFormed (path.length + 1)) (i : Nat) (j : Json) :
    decodeItems path i (before.map (·.tree) ++ j :: after.map (·.tree)) =
      (decodeAt (path ++ [.index (i + before.length)]) j).map
        fun v => before.map (·.value) ++ v :: after.map (·.value) := by
  induction before generalizing i with
  | nil =>
    simp only [List.map_nil, List.nil_append, List.length_nil, Nat.add_zero, decodeItems,
      decodeItems_wellFormed hafter]
    cases decodeAt (path ++ [.index i]) j <;> rfl
  | cons s before ih =>
    have hhead := (hbefore s List.mem_cons_self).decodes (path ++ [.index i]) (by simp)
    have hmore := ih (fun s hs => hbefore s (List.mem_cons_of_mem _ hs)) (i + 1)
    rw [show i + 1 + before.length = i + (before.length + 1) by omega] at hmore
    simp only [List.map_cons, List.cons_append, List.length_cons, decodeItems, hhead, hmore]
    cases decodeAt (path ++ [.index (i + (before.length + 1))]) j <;> rfl

theorem decodeMembers_wellFormed {fields : List Field} {path : NodePath}
    (h : ∀ f ∈ fields, f.WellFormed (path.length + 1)) :
    decodeMembers path (fields.map Field.tree) = .ok (fields.map Field.value) := by
  induction fields with
  | nil => rfl
  | cons f fields ih =>
    have hhead := (h f List.mem_cons_self).node.decodes (path ++ [.field f.name]) (by simp)
    simp only [List.map_cons, Field.tree, decodeMembers, hhead]
    rw [ih fun f hf => h f (List.mem_cons_of_mem _ hf)]
    rfl

theorem decodeMembers_around {before after : List Field} {path : NodePath} {name : String}
    (hbefore : ∀ f ∈ before, f.WellFormed (path.length + 1))
    (hafter : ∀ f ∈ after, f.WellFormed (path.length + 1)) (j : Json) :
    decodeMembers path (before.map Field.tree ++ (name, j) :: after.map Field.tree) =
      (decodeAt (path ++ [.field name]) j).map
        fun v => before.map Field.value ++ (name, v) :: after.map Field.value := by
  induction before with
  | nil =>
    simp only [List.map_nil, List.nil_append, decodeMembers, decodeMembers_wellFormed hafter]
    cases decodeAt (path ++ [.field name]) j <;> rfl
  | cons f before ih =>
    have hhead := (hbefore f List.mem_cons_self).node.decodes (path ++ [.field f.name]) (by simp)
    have hmore := ih fun f hf => hbefore f (List.mem_cons_of_mem _ hf)
    rw [List.map_cons, List.cons_append, Field.tree, decodeMembers, hhead]
    simp only [hmore]
    cases decodeAt (path ++ [.field name]) j <;> rfl

/-! ### The whole from the node -/

/-- Reading comes to the node with two containers open for each step of its path; what the whole is
    then read as is decoded to what the node is decoded to, with the rest of the value around it. -/
theorem Site.reads {path : NodePath} {front back : List Token} {fill : Value → Value}
    (h : Site path front back fill) :
    ∃ (stack : List (Frame Json)) (plug : Json → Json), stack.length = 2 * path.length ∧
      (∀ rest, strict.run (.value []) (front ++ .beginObject :: rest) =
        strict.run (.value stack) (.beginObject :: rest)) ∧
      (∀ j, strict.run (.done j stack) back = .ok (.done (plug j) [])) ∧
      ∀ j, decode (plug j) = (decodeAt path j).map fill := by
  induction h with
  | root =>
    refine ⟨[], id, rfl, fun rest => rfl, fun j => rfl, fun j => ?_⟩
    rw [id_eq, decode]
    cases decodeAt [] j <;> rfl
  | @item path front back nodeFront nodeBack fill before after hsite hdepth hwraps hbefore hafter
      ih =>
    obtain ⟨stack, plug, hlength, hfront, hback, hdecode⟩ := ih
    obtain ⟨frame, ⟨more, hmore⟩, hopen, hclose⟩ := hwraps.reads
    choose members htags hclosed using hclose
    have hstack : (frame :: stack).length + 1 = 2 * (path.length + 1) := by
      rw [List.length_cons]
      omega
    have hroom := two_mul_lt_maxOpen (Nat.succ_le_of_lt hdepth)
    refine ⟨.array (before.map (·.tree)).reverse :: frame :: stack,
      fun j => plug (.object (members (.array (before.map (·.tree) ++ j :: after.map (·.tree))))),
      ?_, ?_, ?_, ?_⟩
    · simpa using hstack
    · intro rest
      have hnode := hopen stack (.beginArray ::
        (before.flatMap (fun s => s.tokens ++ [.comma]) ++ .beginObject :: rest)) (by
          rw [List.length_cons] at hstack
          omega)
      rw [run_arrayBefore hbefore hstack (by omega), hmore, List.cons_append, ← hfront] at hnode
      simpa [hmore] using hnode
    · intro j
      rw [run_itemsAfter hafter hstack, List.reverse_reverse, hclosed, hback]
    · intro j
      rw [hdecode, decodeAt_of_tags (htags _) fun _ => hdepth, decodePayload, if_pos rfl,
        decodeItems_around hbefore hafter, Nat.zero_add]
      cases decodeAt (path ++ [.index before.length]) j <;> rfl
  | @field path front back nodeFront nodeBack fill before after body name hsite hdepth hwraps
      hbefore hafter hbody hnames ih =>
    obtain ⟨stack, plug, hlength, hfront, hback, hdecode⟩ := ih
    obtain ⟨frame, ⟨more, hmore⟩, hopen, hclose⟩ := hwraps.reads
    choose members htags hclosed using hclose
    have hstack : (frame :: stack).length + 1 = 2 * (path.length + 1) := by
      rw [List.length_cons]
      omega
    have hroom := two_mul_lt_maxOpen (Nat.succ_le_of_lt hdepth)
    refine ⟨.object (before.map Field.tree) name :: frame :: stack,
      fun j => plug (.object (members
        (.object (before.map Field.tree ++ (name, j) :: after.map Field.tree)))), ?_, ?_, ?_, ?_⟩
    · simpa using hstack
    · intro rest
      have hnode := hopen stack (.beginObject :: (before.flatMap (fun f => f.tokens ++ [.comma]) ++
        .string body :: .colon :: .beginObject :: rest)) (by
          rw [List.length_cons] at hstack
          omega)
      rw [run_objectBefore hbefore hstack (by omega) hbody hnames, hmore, List.cons_append,
        ← hfront] at hnode
      simpa [hmore] using hnode
    · intro j
      have hread : ((before.map Field.tree).map (·.1) ++ name :: after.map (·.name)).Nodup := by
        rwa [List.map_map]
      rw [run_fieldsAfter hafter hstack hread, hclosed, hback]
    · intro j
      rw [hdecode, decodeAt_of_tags (htags _) fun _ => hdepth, decodePayload, if_pos rfl,
        decodeMembers_around hbefore hafter]
      cases decodeAt (path ++ [.field name]) j <;> rfl

/-! ### Integers as payloads -/

section Payload

variable {path : NodePath} {kind : Kind} {front back nodeFront nodeBack : List Token}
  {fill : Value → Value} {text : String} {word : List Char} {n : Int}

/-- The text of a scalar node is decoded to what its payload makes, if that is a word at all. -/
theorem decodeText_word (hsite : Site path front back fill) (hwraps : Wraps kind nodeFront nodeBack)
    (hscalar : kind.isComposite = false)
    (htext : tokens text.toList = front ++ (nodeFront ++ .word word :: (nodeBack ++ back))) :
    decodeText text = (ofWord? word).elim (.error (.notJson .malformed))
      fun payload => (decodePayload path kind payload).map fill := by
  obtain ⟨stack, plug, hlength, hfront, hback, hdecode⟩ := hsite.reads
  obtain ⟨frame, ⟨more, hmore⟩, hopen, hclose⟩ := hwraps.reads
  have hroom : stack.length + 1 ≤ maxOpen := hlength ▸ two_mul_lt_maxOpen hsite.length_le
  have hnode := hopen stack (.word word :: (nodeBack ++ back)) hroom
  rw [hmore, List.cons_append, ← hfront] at hnode
  have hrun : strict.run (.value []) (tokens text.toList) =
      strict.run (.value (frame :: stack)) (.word word :: (nodeBack ++ back)) := by
    rw [htext, hmore, List.cons_append]
    exact hnode
  cases hword : ofWord? word with
  | none =>
    have hstep : strict.step (.value (frame :: stack)) (.word word) = .error .malformed := by
      change ((ofWord? word).map _).elim _ _ = _
      rw [hword]
      rfl
    rw [Build.run, hstep] at hrun
    simp only [decodeText, readStrict, Build.read, hrun]
    rfl
  | some payload =>
    obtain ⟨members, htags, hclosed⟩ := hclose payload
    rw [run_word hword, hclosed, hback] at hrun
    simp only [decodeText, readStrict, Build.read, hrun, Option.elim]
    change decode (plug (.object members)) = _
    rw [hdecode, decodeAt_of_tags htags fun hcomposite => by simp [hscalar] at hcomposite]

/-- What the integer in a payload is reported as if it does not fit the width of the tag. -/
def integerFault (path : NodePath) (kind : Kind) (n : Int) : DecodeFault :=
  if -0x8000000000000000 ≤ n ∧ n < 0x10000000000000000 then .overflow path kind n
  else if n.natAbs < Binary64.finiteBound then .malformed path (.shape (.mismatch kind "float"))
  else .notJson .malformed

theorem wordSized_of_ofInt? {v : Value} (h : ofInt? n kind = some v) :
    -0x8000000000000000 ≤ n ∧ n < 0x10000000000000000 := by
  cases kind <;> simp only [ofInt?] at h <;> first | cases h | (split at h; omega; cases h)

/-- What is decoded from the word of an integer where a payload of an integer kind stands. -/
theorem decodePayload_writeInt {low high : Int} (hkind : kind.bounds? = some (low, high)) :
    ((ofWord? (Number.writeInt n)).elim (.error (.notJson .malformed))
        fun payload => (decodePayload path kind payload).map fill) =
      (ofInt? n kind).elim (.error (integerFault path kind n)) fun v => .ok (fill v) := by
  unfold integerFault
  by_cases hword : -0x8000000000000000 ≤ n ∧ n < 0x10000000000000000
  · have hpayload : decodePayload path kind (.number (.int ⟨n, hword⟩)) =
        (ofInt? n kind).elim (.error (.overflow path kind n)) .ok := by
      cases kind with
      | i32 | u32 | i64 | u64 =>
        simp only [decodePayload, decodeScalar, Kind.isComposite, Bool.false_eq_true, ↓reduceIte,
          ofPayload]
        cases ofInt? n _ <;> rfl
      | _ => cases hkind
    rw [ofWord?_writeInt hword, if_pos hword, Option.elim, hpayload]
    cases ofInt? n kind <;> rfl
  · have hnone : ofInt? n kind = none := by
      cases hfit : ofInt? n kind with
      | none => rfl
      | some v => exact absurd (wordSized_of_ofInt? hfit) hword
    rw [hnone, if_neg hword]
    split
    · next hfinite =>
      obtain ⟨x, hx⟩ := ofWord?_writeInt_of_finite hword hfinite
      rw [hx]
      cases kind with
      | i32 | u32 | i64 | u64 => rfl
      | _ => cases hkind
    · next hinfinite =>
      rw [ofWord?_writeInt_of_infinite hword hinfinite]
      rfl

/-- A node with an integer as its payload, written out. -/
def integerNode (kind : Kind) (n : Int) : String :=
  String.ofList ('\x7b' :: (writeString "t" ++ ':' :: (writeString kind.tag ++ ',' ::
    (writeString "v" ++ ':' :: (Number.writeInt n ++ ['\x7d'])))))

theorem tokens_integerNode (kind : Kind) (n : Int) :
    tokens (integerNode kind n).toList =
      [.beginObject, .string (bodyOfString "t"), .colon, .string (bodyOfString kind.tag), .comma,
        .string (bodyOfString "v"), .colon, .word (Number.writeInt n), .endObject] := by
  have hne : Number.writeInt n ≠ [] := by
    simp [Number.writeInt]
  rw [tokens, integerNode, String.toList_ofList, lex_mark (c := '\x7b') _ rfl,
    lex_writeString_append, lex_mark (c := ':') _ rfl, lex_writeString_append,
    lex_mark (c := ',') _ rfl, lex_writeString_append, lex_mark (c := ':') _ rfl,
    lex_word_append hne (isWordChar_of_mem_writeInt n) (delimits_mark (c := '\x7d') [] rfl),
    lex_mark (c := '\x7d') _ rfl]
  rfl

/-- The node by itself, as it is written most plainly. -/
theorem decodeText_integerNode {low high : Int} (hkind : kind.bounds? = some (low, high)) :
    decodeText (integerNode kind n) =
      (ofInt? n kind).elim (.error (integerFault [] kind n)) .ok := by
  have hscalar : kind.isComposite = false := by
    cases kind <;> first | rfl | cases hkind
  have hwraps : Wraps kind _ _ := .tagFirst (stringOfBody?_bodyOfString "t")
    (stringOfBody?_bodyOfString kind.tag) (stringOfBody?_bodyOfString "v")
  rw [decodeText_word .root hwraps hscalar (tokens_integerNode kind n)]
  exact decodePayload_writeInt hkind

/-- So the least integer beyond sixty-four bits is not reported as an overflow. -/
theorem decodeText_two_pow_64_ne_overflow :
    decodeText "\x7b\"t\":\"i32\",\"v\":18446744073709551616\x7d" ≠
      .error (.overflow [] .i32 18446744073709551616) := by
  have htext : "\x7b\"t\":\"i32\",\"v\":18446744073709551616\x7d" =
      integerNode .i32 18446744073709551616 := by decide +kernel
  rw [htext, decodeText_integerNode rfl, ofInt?, if_neg (by decide), Option.elim, integerFault,
    if_neg (by decide), if_pos (by decide +kernel)]
  simp

/-- An integer, of any size, as the payload of an integer tag, at any place of a text that is well
    formed otherwise. If it fits the width of the tag it is read. If it does not, it is an overflow
    only as long as it has sixty-four bits: a wider one is read as a float, which is no payload of
    the tag, and one beyond the floats makes the text no JSON. -/
theorem decodeText_writeInt {low high : Int} (hsite : Site path front back fill)
    (hwraps : Wraps kind nodeFront nodeBack) (hkind : kind.bounds? = some (low, high))
    (htext : tokens text.toList =
      front ++ (nodeFront ++ .word (Number.writeInt n) :: (nodeBack ++ back))) :
    decodeText text =
      (ofInt? n kind).elim (.error (integerFault path kind n)) fun v => .ok (fill v) := by
  have hscalar : kind.isComposite = false := by
    cases kind <;> first | rfl | cases hkind
  rw [decodeText_word hsite hwraps hscalar htext]
  exact decodePayload_writeInt hkind

/-- Behind another element of an array, and before its tag, the least integer that no `u64` holds is
    not an overflow. -/
theorem decodeText_writeInt_above_u64 :
    decodeText ("\x7b\"t\":\"arr\",\"v\":[\x7b\"t\":\"null\",\"v\":null\x7d," ++
        "\x7b\"v\": 18446744073709551616, \"t\":\"u64\"\x7d]\x7d") =
      .error (.malformed [.index 1] (.shape (.mismatch .u64 "float"))) := by
  have hroot : Wraps .arr [.beginObject, .string "t".toList, .colon, .string "arr".toList, .comma,
      .string "v".toList, .colon] [.endObject] :=
    .tagFirst (by decide +kernel) (by decide +kernel) (by decide +kernel)
  have hnode : Wraps .u64 [.beginObject, .string "v".toList, .colon]
      [.comma, .string "t".toList, .colon, .string "u64".toList, .endObject] :=
    .payloadFirst (by decide +kernel) (by decide +kernel) (by decide +kernel)
  let other : Spelled := ⟨asTokens (.node .null .null), .node .null .null, .null⟩
  have hother : other.WellFormed 1 := by
    constructor
    · exact readsAs_asTokens (distinct_node trivial) (by decide)
    · intro path hpath
      exact decodeAt_node fun h => by cases h
  have hsite : Site [.index 1] _ _ _ := .item .root (by decide) hroot
    (show ∀ s ∈ [other], s.WellFormed 1 by simpa using hother)
    (show ∀ s ∈ ([] : List Spelled), s.WellFormed 1 by simp)
  refine (decodeText_writeInt (n := 18446744073709551616) hsite hnode rfl ?_).trans ?_
  · decide +kernel
  · rw [ofInt?, if_neg (by decide), Option.elim, integerFault, if_neg (by decide),
      if_pos (by decide +kernel)]

end Payload

end TypedStore.Value
