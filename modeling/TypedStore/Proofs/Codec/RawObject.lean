/-
  TypedStore/Proofs/Codec/RawObject.lean
  ======================================
  **Reading written raw objects.**

  A raw text stands in an object just as it is. Cut into tokens there it gives the tokens that it
  has by itself (`lex_append`), and as it is one value by its grammar, the brackets in it match: the
  reading of the object goes through it and comes to its end (`foldlM_value`). So every map from
  names to raw texts is read back from what is written for it (`ofBytes?_toBytes`).
-/
import TypedStore.Json.Raw
import TypedStore.Proofs.Codec.Lexing
import TypedStore.Proofs.Codec.Reading
import TypedStore.Proofs.Codec.Utf8
import TypedStore.Proofs.SortedMap

namespace TypedStore.Json

/-! ### Tokens of joined texts -/

/-- A token that ends where it ends by itself. -/
def Token.IsClosed (t : Token) : Prop := ∀ body, t ≠ .unclosed body

/-- The cutting holds no blanks back. -/
def Cut.Fresh : Cut → Prop
  | .between blanks => blanks = []
  | _ => True

theorem getLast?_of_cons {c : Char} {text : List Char}
    (h : ∀ d ∈ (c :: text).getLast?, isBlank d = false) :
    ∀ d ∈ text.getLast?, isBlank d = false := by
  intro d hd
  cases text with
  | nil => cases hd
  | cons e text =>
    rw [List.getLast?_cons_cons] at h
    exact h d hd

/-- A text that ends with a token is cut in the same way if a delimiter follows it. -/
theorem lexFrom_append {cut : Cut} {text rest : List Char} (hrest : Delimits rest)
    (hclosed : ∀ l ∈ lexFrom cut text, l.token.IsClosed)
    (hlast : ∀ c ∈ text.getLast?, isBlank c = false) (hcut : text = [] → cut.Fresh) :
    lexFrom cut (text ++ rest) = lexFrom cut text ++ lex rest := by
  fun_induction lexFrom cut text with
  | case1 blanks =>
    obtain rfl : blanks = [] := hcut rfl
    rfl
  | case2 blanks word =>
    have hnone : ∀ c ∈ ([] : List Char), IsWordChar c := by simp
    simpa using lexFrom_word blanks word hnone hrest
  | case3 blanks body => exact absurd rfl (hclosed _ List.mem_cons_self body.reverse)
  | case4 blanks c text hc ih =>
    have hmore : text ≠ [] := by
      rintro rfl
      have := hlast c rfl
      rw [hc] at this
      cases this
    simp only [List.cons_append, lexFrom, hc, ↓reduceIte]
    exact ih hclosed (getLast?_of_cons hlast) fun h => absurd h hmore
  | case5 blanks text hc ih =>
    simp only [List.cons_append, lexFrom, hc, ↓reduceIte]
    exact ih hclosed (getLast?_of_cons hlast) fun _ => trivial
  | case6 blanks c text hc hquote mark hmark ih =>
    simp only [List.cons_append, lexFrom, hc, hquote, hmark, ↓reduceIte]
    rw [ih (fun l hl => hclosed l (List.mem_cons_of_mem _ hl)) (getLast?_of_cons hlast)
      fun _ => rfl]
    rfl
  | case7 blanks c text hc hquote hmark ih =>
    simp only [List.cons_append, lexFrom, hc, hquote, hmark, ↓reduceIte]
    exact ih hclosed (getLast?_of_cons hlast) fun _ => trivial
  | case8 blanks word c text hc ih =>
    have hmore : text ≠ [] := by
      rintro rfl
      have := hlast c rfl
      rw [hc] at this
      cases this
    simp only [List.cons_append, lexFrom, hc, ↓reduceIte]
    rw [ih (fun l hl => hclosed l (List.mem_cons_of_mem _ hl)) (getLast?_of_cons hlast)
      fun h => absurd h hmore]
  | case9 blanks word text hc ih =>
    simp only [List.cons_append, lexFrom, hc, ↓reduceIte]
    rw [ih (fun l hl => hclosed l (List.mem_cons_of_mem _ hl)) (getLast?_of_cons hlast)
      fun _ => trivial]
    rfl
  | case10 blanks word c text hc hquote mark hmark ih =>
    simp only [List.cons_append, lexFrom, hc, hquote, hmark, ↓reduceIte]
    rw [ih (fun l hl => hclosed l (List.mem_cons_of_mem _ (List.mem_cons_of_mem _ hl)))
      (getLast?_of_cons hlast) fun _ => rfl]
    rfl
  | case11 blanks word c text hc hquote hmark ih =>
    simp only [List.cons_append, lexFrom, hc, hquote, hmark, ↓reduceIte]
    exact ih hclosed (getLast?_of_cons hlast) fun _ => trivial
  | case12 blanks body c text ih =>
    simp only [List.cons_append, lexFrom]
    exact ih hclosed (getLast?_of_cons hlast) fun _ => trivial
  | case13 blanks body text ih =>
    simp only [List.cons_append, lexFrom, ↓reduceIte]
    exact ih hclosed (getLast?_of_cons hlast) fun _ => trivial
  | case14 blanks body text hc ih =>
    simp only [List.cons_append, lexFrom, hc, ↓reduceIte]
    rw [ih (fun l hl => hclosed l (List.mem_cons_of_mem _ hl)) (getLast?_of_cons hlast)
      fun _ => rfl]
  | case15 blanks body c text hslash hquote ih =>
    simp only [List.cons_append, lexFrom, hslash, hquote, ↓reduceIte]
    exact ih hclosed (getLast?_of_cons hlast) fun _ => trivial

/-! ### What the grammar says of tokens -/

/-- How many containers are open where a reading stands. -/
def Reading.depth {α : Type} : Reading α → Nat
  | .value stack | .done _ stack => stack.length
  | .firstItem stack | .firstName stack | .nextName _ stack | .colon _ _ stack => stack.length + 1

theorem isClosed_of_step {α : Type} {b : Build α} {r next : Reading α} {token : Token}
    (h : b.step r token = .ok next) : token.IsClosed := by
  rintro body rfl
  cases r with
  | done value stack =>
    cases stack with
    | nil => cases h
    | cons frame stack => cases frame <;> cases h
  | _ => cases h

theorem isClosed_of_run {α : Type} {b : Build α} {r last : Reading α} {ts : List Token}
    (h : b.run r ts = .ok last) : ∀ t ∈ ts, t.IsClosed := by
  induction ts generalizing r with
  | nil => simp
  | cons token ts ih =>
    rw [Build.run] at h
    cases hstep : b.step r token with
    | error fault => simp [hstep] at h
    | ok next =>
      rw [hstep] at h
      intro t ht
      rcases List.mem_cons.1 ht with rfl | ht
      · exact isClosed_of_step hstep
      · exact ih h t ht

namespace RawReading

variable {entries : RawObject} {name : String} {text : List Char}

/-- Reading a value counts the containers that the grammar opens and closes in it. -/
theorem value?_of_step {r next : Reading Unit} {l : Lexeme}
    (h : grammar.step r l.token = .ok next) :
    value? entries name r.depth text l = some (.value entries name next.depth (text ++ l.text)) := by
  obtain ⟨blanks, token⟩ := l
  have hvalue : ∀ {stack : List (Frame Unit)} {next : Reading Unit},
      grammar.beginValue stack token = .ok next →
        value? entries name stack.length text ⟨blanks, token⟩ =
          some (.value entries name next.depth (text ++ Lexeme.text ⟨blanks, token⟩)) := by
    intro stack next h
    cases token with
    | word word =>
      change ((grammar.word word).map (Reading.done · stack)).elim _ _ = _ at h
      cases hword : grammar.word word with
      | none => simp [hword] at h
      | some u =>
        obtain rfl : Reading.done u stack = next := by simpa [hword] using h
        cases stack <;> rfl
    | string body =>
      change ((grammar.string body).map (Reading.done · stack)).elim _ _ = _ at h
      cases hbody : grammar.string body with
      | none => simp [hbody] at h
      | some u =>
        obtain rfl : Reading.done u stack = next := by simpa [hbody] using h
        cases stack <;> rfl
    | beginArray =>
      obtain rfl := Except.ok.inj h
      cases stack <;> rfl
    | beginObject =>
      obtain rfl := Except.ok.inj h
      cases stack <;> rfl
    | _ => cases h
  have hmember : ∀ {members : List (String × Unit)} {stack : List (Frame Unit)}
      {next : Reading Unit}, grammar.beginMember members stack token = .ok next →
        value? entries name (stack.length + 1) text ⟨blanks, token⟩ =
          some (.value entries name next.depth (text ++ Lexeme.text ⟨blanks, token⟩)) := by
    intro members stack next h
    cases token with
    | string body =>
      change (grammar.name members body).map _ = _ at h
      cases hname : grammar.name members body with
      | error fault => simp [hname, Except.map] at h
      | ok name =>
        obtain rfl : Reading.colon members name stack = next := by
          simpa [hname, Except.map] using h
        rfl
    | _ => cases h
  cases r with
  | value stack => exact hvalue h
  | firstItem stack =>
    by_cases hend : token = .endArray
    · subst hend
      obtain rfl := Except.ok.inj h
      rfl
    · rw [Build.step_firstItem _ hend] at h
      exact hvalue h
  | firstName stack =>
    by_cases hend : token = .endObject
    · subst hend
      obtain rfl := Except.ok.inj h
      rfl
    · rw [Build.step_firstName _ hend] at h
      exact hmember h
  | nextName members stack => exact hmember h
  | colon members name stack =>
    cases token with
    | colon =>
      obtain rfl := Except.ok.inj h
      rfl
    | _ => cases h
  | done value stack =>
    cases stack with
    | nil => cases h
    | cons frame stack =>
      cases frame with
      | array items => cases token <;> first | (obtain rfl := Except.ok.inj h; rfl) | cases h
      | object members name =>
        cases token <;> first | (obtain rfl := Except.ok.inj h; rfl) | cases h

theorem foldlM_value {r last : Reading Unit} {ls : List Lexeme}
    (h : grammar.run r (ls.map (·.token)) = .ok last) :
    ls.foldlM step? (.value entries name r.depth text) =
      some (.value entries name last.depth (text ++ ls.flatMap Lexeme.text)) := by
  induction ls generalizing r text with
  | nil =>
    obtain rfl := Except.ok.inj h
    simp
  | cons l ls ih =>
    rw [List.map_cons, Build.run] at h
    cases hstep : grammar.step r l.token with
    | error fault => simp [hstep] at h
    | ok next =>
      rw [hstep] at h
      have hread : step? (.value entries name r.depth text) l = _ := value?_of_step hstep
      rw [List.foldlM_cons, hread]
      change ls.foldlM step? (.value entries name next.depth (text ++ l.text)) = _
      rw [ih h, List.flatMap_cons, List.append_assoc]

end RawReading

/-! ### Raw texts -/

theorem run_of_isValueText {text : List Char} (h : isValueText text) :
    grammar.run (.value []) (tokens text) = .ok (.done () []) := by
  rw [isValueText, Build.read] at h
  cases hrun : grammar.run (.value []) (tokens text) with
  | error fault => simp [hrun, Except.bind, Except.toBool] at h
  | ok last =>
    rw [hrun] at h
    cases last with
    | done value stack =>
      cases stack with
      | nil => rfl
      | cons frame stack => cases h
    | _ => cases h

namespace RawText

variable (raw : RawText)

theorem getLast?_chars : ∀ c ∈ raw.chars.getLast?, isBlank c = false := by
  intro c hc
  have htrim := raw.isTrim
  rw [trim] at htrim
  rw [← htrim, List.getLast?_reverse] at hc
  have hhead := List.head?_dropWhile_not isBlank (raw.chars.dropWhile isBlank).reverse
  rw [Option.mem_def.1 hc] at hhead
  simpa using hhead

/-- What reading a raw text by its grammar ends with. -/
theorem run_grammar :
    grammar.run (.value []) ((lex raw.chars).map (·.token)) = .ok (.done () []) :=
  run_of_isValueText raw.isValue

/-- A raw text is made of its tokens and the blanks between them. -/
theorem flatMap_text_lex : (lex raw.chars).flatMap Lexeme.text = raw.chars := by
  obtain ⟨trailing, hblank, heq⟩ := Json.flatMap_text_lex raw.chars
  have hnil : trailing = [] := by
    cases hlast : trailing.getLast? with
    | none => exact List.getLast?_eq_none_iff.1 hlast
    | some c =>
      have hend : raw.chars.getLast? = some c := by rw [heq, List.getLast?_append, hlast]; rfl
      have hplain := raw.getLast?_chars c hend
      rw [hblank c (List.mem_of_getLast? hlast)] at hplain
      cases hplain
  rw [hnil, List.append_nil] at heq
  exact heq.symm

/-- With a delimiter after it a raw text gives the tokens that it has by itself. -/
theorem lex_append {rest : List Char} (hrest : Delimits rest) :
    lex (raw.chars ++ rest) = lex raw.chars ++ lex rest := by
  refine lexFrom_append hrest ?_ raw.getLast?_chars fun _ => rfl
  intro l hl
  exact isClosed_of_run raw.run_grammar _ (List.mem_map_of_mem hl)

theorem ofChars?_chars : ofChars? raw.chars = some raw := by
  have hvalue : isValueText (trim raw.chars) := by
    rw [raw.isTrim]
    exact raw.isValue
  rw [ofChars?, dif_pos hvalue]
  obtain ⟨chars, _, htrim⟩ := raw
  congr

end RawText

/-! ### Raw objects -/

namespace RawReading

theorem foldlM_raw (entries : RawObject) (name : String) (raw : RawText) :
    (lex raw.chars).foldlM step? (.value entries name 0 []) =
      some (.value entries name 0 raw.chars) := by
  have h : (lex raw.chars).foldlM step? (.value entries name 0 []) =
      some (.value entries name 0 ([] ++ (lex raw.chars).flatMap Lexeme.text)) :=
    foldlM_value raw.run_grammar
  rw [raw.flatMap_text_lex] at h
  exact h

/-- Reading an entry comes to the end of its value. -/
theorem foldlM_entry (entries : RawObject) (entry : String × RawText) {rest : List Char}
    (hrest : Delimits rest) :
    (lex (RawObject.writeEntry entry ++ rest)).foldlM step? (.next entries) =
      (lex rest).foldlM step? (.value entries entry.1 0 entry.2.chars) := by
  obtain ⟨name, raw⟩ := entry
  have hname : step? (.next entries) ⟨[], .string (bodyOfString name)⟩ =
      some (.colon entries name) := by
    change (stringOfBody? (bodyOfString name)).map _ = _
    rw [stringOfBody?_bodyOfString]
    rfl
  have hcolon : lex (':' :: (raw.chars ++ rest)) = ⟨[], .colon⟩ :: (lex raw.chars ++ lex rest) := by
    rw [lex_mark (c := ':') _ rfl, raw.lex_append hrest]
  rw [RawObject.writeEntry, List.append_assoc, List.cons_append, lex_writeString_append, hcolon,
    List.foldlM_cons, hname]
  change (lex raw.chars ++ lex rest).foldlM step? (.value entries name 0 []) = _
  rw [List.foldlM_append, foldlM_raw]
  rfl

theorem foldlM_first (entry : String × RawText) (rest : List Char) :
    (lex (RawObject.writeEntry entry ++ rest)).foldlM step? .first =
      (lex (RawObject.writeEntry entry ++ rest)).foldlM step? (.next .empty) := by
  rw [RawObject.writeEntry, List.append_assoc, lex_writeString_append, List.foldlM_cons,
    List.foldlM_cons]
  rfl

theorem close?_raw (entries : RawObject) (name : String) (raw : RawText) :
    close? entries name raw.chars = some (entries.insert name raw) := by
  rw [close?, raw.ofChars?_chars]
  rfl

/-- Reading the entries that follow one another up to the end of the object. -/
theorem foldlM_entries (entries : RawObject) (entry : String × RawText)
    (more : List (String × RawText)) :
    (lex ([','].intercalate ((entry :: more).map RawObject.writeEntry) ++ ['\x7d'])).foldlM step?
        (.next entries) =
      some (.done ((entry :: more).foldl (fun m e => m.insert e.1 e.2) entries)) := by
  induction more generalizing entries entry with
  | nil =>
    rw [List.map_singleton, List.intercalate_singleton,
      foldlM_entry entries entry (delimits_mark (c := '\x7d') [] rfl),
      lex_mark (c := '\x7d') _ rfl, List.foldlM_cons]
    change (close? entries entry.1 entry.2.chars).map RawReading.done >>= _ = _
    rw [close?_raw]
    rfl
  | cons next more ih =>
    have hcomma := foldlM_entry entries entry (delimits_mark (c := ',')
      ([','].intercalate ((next :: more).map RawObject.writeEntry) ++ ['\x7d']) rfl)
    rw [List.map_cons, List.map_cons, List.intercalate_cons_cons, ← List.map_cons,
      List.append_assoc, List.append_assoc, List.singleton_append, hcomma,
      lex_mark (c := ',') _ rfl, List.foldlM_cons]
    change (close? entries entry.1 entry.2.chars).map RawReading.next >>= _ = _
    rw [close?_raw]
    exact ih (entries.insert entry.1 entry.2) next

end RawReading

namespace RawObject

/-- The text of a raw object is read as that object. -/
theorem ofChars?_write (entries : RawObject) : ofChars? (write entries) = some entries := by
  have hopen : lex (write entries) = ⟨[], .beginObject⟩ ::
      lex ([','].intercalate (entries.toList.map writeEntry) ++ ['\x7d']) := by
    rw [write, List.cons_append, lex_mark (c := '\x7b') _ rfl]
  have hread : (lex (write entries)).foldlM RawReading.step? .start = some (.done entries) := by
    rw [hopen, List.foldlM_cons]
    have hfold : entries.toList.foldl (fun m e => m.insert e.1 e.2) .empty = entries :=
      SortedMap.ofList_toList entries
    cases hlist : entries.toList with
    | nil =>
      rw [hlist] at hfold
      rw [← hfold]
      rfl
    | cons entry more =>
      rw [hlist] at hfold
      have hentries := RawReading.foldlM_entries .empty entry more
      rw [hfold] at hentries
      rw [← hentries]
      -- Where the object could also end there is a name, which is read as after a comma.
      cases more with
      | nil =>
        rw [List.map_singleton, List.intercalate_singleton]
        exact RawReading.foldlM_first entry _
      | cons next more =>
        rw [List.map_cons, List.map_cons, List.intercalate_cons_cons, List.append_assoc,
          List.append_assoc]
        exact RawReading.foldlM_first entry _
  rw [ofChars?, hread]

/-- The bytes of a raw object are read as that object. -/
theorem ofBytes?_toBytes (entries : RawObject) : ofBytes? (toBytes entries) = some entries := by
  have hsplit : Utf8.split (toBytes entries) = (write entries, none) :=
    Utf8.split_encodeChars (write entries)
  rw [ofBytes?, hsplit]
  exact ofChars?_write entries

end RawObject

end TypedStore.Json
