/-
  TypedStore/Proofs/Codec/Reading.lean
  ====================================
  **Reading written trees.**

  The strict reading of a tree's tokens builds the tree, inside any open containers, if no object of
  it repeats a name and the containers open at once are few enough (`run_asTokens`). So the text of
  such a tree and the bytes of that text are read back as the tree (`readStrict_text`,
  `readStrictBytes_text`).

  What the strict reading accepts is a value by its grammar (`isValueText_of_read`).
-/
import TypedStore.Json.Raw
import TypedStore.Proofs.Codec.Lexing
import TypedStore.Proofs.Codec.Utf8

namespace TypedStore.Json

/-! ### Nesting -/

mutual

/-- How many containers of a tree are open at once. -/
def nesting : Json → Nat
  | .array items => 1 + nestingItems items
  | .object members => 1 + nestingMembers members
  | _ => 0

/-- The greatest nesting of an element. -/
def nestingItems : List Json → Nat
  | [] => 0
  | item :: rest => max (nesting item) (nestingItems rest)

/-- The greatest nesting of a member. -/
def nestingMembers : List (String × Json) → Nat
  | [] => 0
  | (_, value) :: rest => max (nesting value) (nestingMembers rest)

end

/-! ### The strict reading, step by step -/

section Steps

variable {stack : List (Frame Json)} {ts : List Token}

theorem run_word {word : List Char} {j : Json} (h : ofWord? word = some j) :
    strict.run (.value stack) (.word word :: ts) = strict.run (.done j stack) ts := by
  have hstep : strict.step (.value stack) (.word word) = .ok (.done j stack) := by
    change ((ofWord? word).map (Reading.done · stack)).elim _ _ = _
    rw [h]
    rfl
  rw [Build.run, hstep]

/-- A string, however its body is written. -/
theorem run_body {body : List Char} {s : String} (h : stringOfBody? body = some s) :
    strict.run (.value stack) (.string body :: ts) = strict.run (.done (.string s) stack) ts := by
  have hstep : strict.step (.value stack) (.string body) = .ok (.done (.string s) stack) := by
    change (((stringOfBody? body).map Json.string).map (Reading.done · stack)).elim _ _ = _
    rw [h]
    rfl
  rw [Build.run, hstep]

theorem run_string (s : String) :
    strict.run (.value stack) (.string (bodyOfString s) :: ts) =
      strict.run (.done (.string s) stack) ts :=
  run_body (stringOfBody?_bodyOfString s)

theorem run_beginArray (h : stack.length + 1 ≤ maxOpen) :
    strict.run (.value stack) (.beginArray :: ts) = strict.run (.firstItem stack) ts := by
  have hstep : strict.step (.value stack) .beginArray = .ok (.firstItem stack) :=
    if_pos (decide_eq_true h)
  rw [Build.run, hstep]

theorem run_beginObject (h : stack.length + 1 ≤ maxOpen) :
    strict.run (.value stack) (.beginObject :: ts) = strict.run (.firstName stack) ts := by
  have hstep : strict.step (.value stack) .beginObject = .ok (.firstName stack) :=
    if_pos (decide_eq_true h)
  rw [Build.run, hstep]

/-- The name of a member that is not there yet, however it is written, and its colon. -/
theorem run_nameBody {members : List (String × Json)} {body : List Char} {name : String}
    (hbody : stringOfBody? body = some name) (h : find? name members = none) :
    strict.run (.nextName members stack) (.string body :: .colon :: ts) =
      strict.run (.value (.object members name :: stack)) ts := by
  have hname : strict.name members body = .ok name := by
    change (nameOfBody body >>= _) = _
    rw [nameOfBody, hbody]
    change (if (find? name members).isSome then _ else _) = _
    rw [h]
    rfl
  have hstep : strict.step (.nextName members stack) (.string body) =
      .ok (.colon members name stack) := by
    change (strict.name members body).map _ = _
    rw [hname]
    rfl
  rw [Build.run, hstep]
  rfl

theorem run_name {members : List (String × Json)} {name : String}
    (h : find? name members = none) :
    strict.run (.nextName members stack) (.string (bodyOfString name) :: .colon :: ts) =
      strict.run (.value (.object members name :: stack)) ts :=
  run_nameBody (stringOfBody?_bodyOfString name) h

/-- Before its first element an array reads a value as it does after a comma. -/
theorem run_firstItem (j : Json) :
    strict.run (.firstItem stack) (asTokens j ++ ts) =
      strict.run (.value (.array [] :: stack)) (asTokens j ++ ts) := by
  cases j with
  | bool b => cases b <;> rfl
  | _ => rfl

end Steps

/-- A number's text is the word of that number. -/
theorem ofWord?_write (n : Number) : ofWord? n.write = some (.number n) := by
  have hnull : n.write ≠ "null".toList := number_write_ne (by decide +kernel)
  have htrue : n.write ≠ "true".toList := number_write_ne (by decide +kernel)
  have hfalse : n.write ≠ "false".toList := number_write_ne (by decide +kernel)
  rw [ofWord?, if_neg hnull, if_neg htrue, if_neg hfalse, numberOfWord?_write]
  rfl

/-! ### Trees -/

mutual

/-- Reading the tokens of a tree builds it, whatever is open around it. -/
theorem run_asTokens (j : Json) (hdistinct : j.Distinct) (stack : List (Frame Json))
    (hopen : stack.length + nesting j ≤ maxOpen) (ts : List Token) :
    strict.run (.value stack) (asTokens j ++ ts) = strict.run (.done j stack) ts := by
  cases j with
  | null => exact run_word rfl
  | bool b =>
    cases b with
    | true => exact run_word rfl
    | false => exact run_word rfl
  | number n => exact run_word (ofWord?_write n)
  | string s => exact run_string s
  | array items =>
    rw [nesting] at hopen
    rw [asTokens, List.cons_append, run_beginArray (by omega), List.append_assoc]
    cases items with
    | nil => rfl
    | cons item rest =>
      have hitems := run_itemTokens (item :: rest) (List.cons_ne_nil _ _) hdistinct stack []
        (by omega) ts
      rw [List.reverse_nil, List.nil_append] at hitems
      rw [List.singleton_append, ← hitems]
      cases rest with
      | nil => exact run_firstItem item
      | cons next rest =>
        rw [itemTokens, List.append_assoc]
        exact run_firstItem item
  | object members =>
    rw [nesting] at hopen
    rw [asTokens, List.cons_append, run_beginObject (by omega), List.append_assoc]
    obtain ⟨hnames, hmembers⟩ := hdistinct
    cases members with
    | nil => rfl
    | cons member rest =>
      have hread := run_memberTokens (member :: rest) (List.cons_ne_nil _ _) hmembers [] hnames
        stack (by omega) ts
      rw [List.nil_append] at hread
      rw [List.singleton_append, ← hread]
      obtain ⟨name, value⟩ := member
      cases rest with
      | nil => rfl
      | cons next rest => rfl

/-- The same for further elements, `read` being those before them in reverse. -/
theorem run_itemTokens (items : List Json) (hne : items ≠ []) (hdistinct : DistinctItems items)
    (stack : List (Frame Json)) (read : List Json)
    (hopen : stack.length + (1 + nestingItems items) ≤ maxOpen) (ts : List Token) :
    strict.run (.value (.array read :: stack)) (itemTokens items ++ .endArray :: ts) =
      strict.run (.done (.array (read.reverse ++ items)) stack) ts := by
  cases items with
  | nil => exact absurd rfl hne
  | cons item rest =>
    obtain ⟨hitem, hrest⟩ := hdistinct
    rw [nestingItems] at hopen
    have hhead := run_asTokens item hitem (.array read :: stack)
      (by simp only [List.length_cons]; omega)
    cases rest with
    | nil =>
      rw [itemTokens, hhead]
      change strict.run (.done (.array (item :: read).reverse) stack) ts = _
      rw [List.reverse_cons]
    | cons next rest =>
      have hmore := run_itemTokens (next :: rest) (List.cons_ne_nil _ _) hrest stack
        (item :: read) (by omega) ts
      rw [itemTokens, List.append_assoc, hhead]
      change strict.run (.value (.array (item :: read) :: stack))
        (itemTokens (next :: rest) ++ .endArray :: ts) = _
      rw [hmore, List.reverse_cons, List.append_assoc, List.singleton_append]

/-- The same for further members, `read` being those before them. -/
theorem run_memberTokens (members : List (String × Json)) (hne : members ≠ [])
    (hdistinct : DistinctMembers members) (read : List (String × Json))
    (hnames : ((read ++ members).map (·.1)).Nodup) (stack : List (Frame Json))
    (hopen : stack.length + (1 + nestingMembers members) ≤ maxOpen) (ts : List Token) :
    strict.run (.nextName read stack) (memberTokens members ++ .endObject :: ts) =
      strict.run (.done (.object (read ++ members)) stack) ts := by
  cases members with
  | nil => exact absurd rfl hne
  | cons member rest =>
    obtain ⟨name, value⟩ := member
    obtain ⟨hvalue, hrest⟩ := hdistinct
    rw [nestingMembers] at hopen
    obtain ⟨hnew, hset⟩ := new_of_nodup (by rwa [List.map_append] at hnames) value
    have hhead := run_asTokens value hvalue (.object read name :: stack)
      (by simp only [List.length_cons]; omega)
    cases rest with
    | nil =>
      rw [memberTokens, List.cons_append, List.cons_append, run_name hnew, hhead]
      change strict.run (.done (.object (setMember name value read)) stack) ts = _
      rw [hset]
    | cons next rest =>
      have hmore := run_memberTokens (next :: rest) (List.cons_ne_nil _ _) hrest
        (read ++ [(name, value)]) (by rwa [List.append_assoc, List.singleton_append]) stack
        (by omega) ts
      rw [memberTokens, List.cons_append, List.cons_append, run_name hnew, List.append_assoc,
        hhead]
      change strict.run (.nextName (setMember name value read) stack)
        (memberTokens (next :: rest) ++ .endObject :: ts) = _
      rw [hset, hmore, List.append_assoc, List.singleton_append]

end

/-- The tokens of a tree are read as that tree. -/
theorem read_asTokens {j : Json} (hdistinct : j.Distinct) (hopen : nesting j ≤ maxOpen) :
    strict.read (asTokens j) = .ok j := by
  have hrun := run_asTokens j hdistinct [] (by simpa using hopen) []
  rw [List.append_nil] at hrun
  rw [Build.read, hrun]
  rfl

/-- The text of a tree is read as that tree. -/
theorem readStrict_text {j : Json} (hdistinct : j.Distinct) (hopen : nesting j ≤ maxOpen) :
    readStrict j.text = .ok j := by
  rw [readStrict, text, String.toList_ofList, tokens_write]
  exact read_asTokens hdistinct hopen

/-- The bytes of a tree's text are read as that tree. -/
theorem readStrictBytes_text {j : Json} (hdistinct : j.Distinct) (hopen : nesting j ≤ maxOpen) :
    readStrictBytes (Utf8.encode j.text) = .ok j := by
  have hsplit : Utf8.split (Utf8.encode j.text) = (write j, none) := by
    rw [Utf8.encode, text, String.toList_ofList]
    exact Utf8.split_encodeChars (write j)
  rw [readStrictBytes, hsplit]
  change strict.read (tokens (write j)) = _
  rw [tokens_write]
  exact read_asTokens hdistinct hopen

/-! ### Grammar -/

/-- What the grammar keeps of an open container. -/
def Frame.forget : Frame Json → Frame Unit
  | .array items => .array (items.map fun _ => ())
  | .object _ _ => .object [] ""

/-- What the grammar keeps of a reading. -/
def Reading.forget : Reading Json → Reading Unit
  | .value stack => .value (stack.map Frame.forget)
  | .firstItem stack => .firstItem (stack.map Frame.forget)
  | .firstName stack => .firstName (stack.map Frame.forget)
  | .nextName _ stack => .nextName [] (stack.map Frame.forget)
  | .colon _ _ stack => .colon [] "" (stack.map Frame.forget)
  | .done _ stack => .done () (stack.map Frame.forget)

theorem grammar_word {word : List Char} {j : Json} (h : ofWord? word = some j) :
    grammar.word word = some () := by
  unfold ofWord? at h
  split at h
  · next hnull => exact if_pos (.inl hnull)
  split at h
  · next htrue => exact if_pos (.inr (.inl htrue))
  split at h
  · next hfalse => exact if_pos (.inr (.inr (.inl hfalse)))
  · obtain ⟨n, hn, -⟩ := Option.map_eq_some_iff.1 h
    obtain ⟨parts, hparts, -⟩ := Option.bind_eq_some_iff.1 hn
    exact if_pos (.inr (.inr (.inr (by rw [hparts]; rfl))))

theorem pieces?_of_stringOfBody? {body : List Char} {s : String} (h : stringOfBody? body = some s) :
    ∃ pieces, pieces? body = some pieces := by
  obtain ⟨cs, hcs, -⟩ := Option.map_eq_some_iff.1 h
  obtain ⟨pieces, hpieces, -⟩ := Option.bind_eq_some_iff.1 hcs
  exact ⟨pieces, hpieces⟩

theorem forget_beginValue {stack : List (Frame Json)} {token : Token} {next : Reading Json}
    (h : strict.beginValue stack token = .ok next) :
    grammar.beginValue (stack.map Frame.forget) token = .ok next.forget := by
  cases token with
  | word word =>
    change ((ofWord? word).map (Reading.done · stack)).elim _ _ = _ at h
    cases hword : ofWord? word with
    | none => simp [hword] at h
    | some j =>
      obtain rfl : Reading.done j stack = next := by simpa [hword] using h
      simp [Build.beginValue, grammar_word hword, Reading.forget]
  | string body =>
    change (((stringOfBody? body).map Json.string).map (Reading.done · stack)).elim _ _ = _ at h
    cases hbody : stringOfBody? body with
    | none => simp [hbody] at h
    | some s =>
      obtain ⟨pieces, hpieces⟩ := pieces?_of_stringOfBody? hbody
      obtain rfl : Reading.done (.string s) stack = next := by simpa [hbody] using h
      simp [Build.beginValue, grammar, hpieces, Reading.forget]
  | beginArray =>
    simp only [Build.beginValue] at h
    split at h
    · obtain rfl := Except.ok.inj h
      rfl
    · cases h
  | beginObject =>
    simp only [Build.beginValue] at h
    split at h
    · obtain rfl := Except.ok.inj h
      rfl
    · cases h
  | _ => cases h

theorem forget_beginMember {members : List (String × Json)} {stack : List (Frame Json)}
    {token : Token} {next : Reading Json} (h : strict.beginMember members stack token = .ok next) :
    grammar.beginMember [] (stack.map Frame.forget) token = .ok next.forget := by
  cases token with
  | string body =>
    change (strict.name members body).map _ = _ at h
    cases hname : strict.name members body with
    | error fault => simp [hname, Except.map] at h
    | ok name =>
      obtain rfl : Reading.colon members name stack = next := by simpa [hname, Except.map] using h
      change (nameOfBody body >>= _) = _ at hname
      cases hbody : stringOfBody? body with
      | none => simp [nameOfBody, hbody, bind, Except.bind] at hname
      | some s =>
        obtain ⟨pieces, hpieces⟩ := pieces?_of_stringOfBody? hbody
        simp [Build.beginMember, grammar, hpieces, Except.map, Reading.forget]
  | _ => cases h

theorem forget_afterValue {value : Json} {stack : List (Frame Json)} {token : Token}
    {next : Reading Json} (h : strict.afterValue value stack token = .ok next) :
    grammar.afterValue () (stack.map Frame.forget) token = .ok next.forget := by
  cases stack with
  | nil => cases h
  | cons frame stack =>
    cases frame with
    | array items => cases token <;> first | (obtain rfl := Except.ok.inj h; rfl) | cases h
    | object members name =>
      cases token <;> first | (obtain rfl := Except.ok.inj h; rfl) | cases h

theorem Build.step_firstItem {α : Type} (b : Build α) {stack : List (Frame α)} {token : Token}
    (h : token ≠ .endArray) :
    b.step (.firstItem stack) token = b.beginValue (.array [] :: stack) token := by
  cases token <;> first | rfl | exact absurd rfl h

theorem Build.step_firstName {α : Type} (b : Build α) {stack : List (Frame α)} {token : Token}
    (h : token ≠ .endObject) :
    b.step (.firstName stack) token = b.beginMember [] stack token := by
  cases token <;> first | rfl | exact absurd rfl h

/-- What the strict reading does at a token the grammar does too. -/
theorem forget_step {r next : Reading Json} {token : Token} (h : strict.step r token = .ok next) :
    grammar.step r.forget token = .ok next.forget := by
  cases r with
  | value stack => exact forget_beginValue h
  | firstItem stack =>
    by_cases hend : token = .endArray
    · subst hend
      obtain rfl := Except.ok.inj h
      rfl
    · rw [Reading.forget, Build.step_firstItem _ hend]
      rw [Build.step_firstItem _ hend] at h
      exact forget_beginValue h
  | firstName stack =>
    by_cases hend : token = .endObject
    · subst hend
      obtain rfl := Except.ok.inj h
      rfl
    · rw [Reading.forget, Build.step_firstName _ hend]
      rw [Build.step_firstName _ hend] at h
      exact forget_beginMember h
  | nextName members stack => exact forget_beginMember h
  | colon members name stack =>
    cases token with
    | colon =>
      obtain rfl := Except.ok.inj h
      rfl
    | _ => cases h
  | done value stack => exact forget_afterValue h

theorem forget_run {r last : Reading Json} {ts : List Token} (h : strict.run r ts = .ok last) :
    grammar.run r.forget ts = .ok last.forget := by
  induction ts generalizing r with
  | nil =>
    obtain rfl := Except.ok.inj h
    rfl
  | cons token ts ih =>
    rw [Build.run] at h ⊢
    cases hstep : strict.step r token with
    | error fault => simp [hstep] at h
    | ok next =>
      rw [hstep] at h
      rw [forget_step hstep]
      exact ih h

/-- A text that the strict reading accepts is one value by its grammar. -/
theorem isValueText_of_read {text : List Char} {j : Json}
    (h : strict.read (tokens text) = .ok j) : isValueText text := by
  rw [Build.read] at h
  cases hrun : strict.run (.value []) (tokens text) with
  | error fault => simp [hrun, Except.bind] at h
  | ok last =>
    have hlast := forget_run hrun
    rw [hrun] at h
    have hdone : ∃ value, last = .done value [] := by
      cases last with
      | done value stack =>
        cases stack with
        | nil => exact ⟨value, rfl⟩
        | cons frame stack => cases h
      | _ => cases h
    obtain ⟨value, rfl⟩ := hdone
    change grammar.run (.value []) (tokens text) = _ at hlast
    rw [isValueText, Build.read, hlast]
    rfl

end TypedStore.Json
