/-
  TypedStore/Proofs/Codec/ObjectText.lean
  =======================================
  **What is read from the text of a raw object.**

  The text of an object writes a list of entries, each with the name that its string stands for and
  with its value as it is written, blanks being free around all of them (`WritesObject`). The reader of
  raw objects accepts exactly such texts, and what it returns is the map of the entries, in which the
  last one of a name counts (`ofChars?_eq_some_iff`, and for bytes `ofBytes?_eq_some_iff`).
-/
import TypedStore.Proofs.Codec.ValueText

namespace TypedStore.Json

/-! ### Texts of objects -/

/-- A name, a colon and a value, with blanks around each. -/
inductive WritesEntry : List Char → String × RawText → Prop where
  | intro {before body between space after : List Char} {name : String} {raw : RawText} :
    AllBlank before → stringOfBody? body = some name → AllBlank between → AllBlank space →
      AllBlank after →
      WritesEntry
        (before ++ '"' :: (body ++ '"' :: (between ++ ':' :: (space ++ (raw.chars ++ after)))))
        (name, raw)

/-- Entries in the order in which they are written, with commas between them. -/
inductive WritesEntries : List Char → List (String × RawText) → Prop where
  | one {text : List Char} {entry : String × RawText} :
    WritesEntry text entry → WritesEntries text [entry]
  | more {texts text : List Char} {entries : List (String × RawText)} {entry : String × RawText} :
    WritesEntries texts entries → WritesEntry text entry →
      WritesEntries (texts ++ ',' :: text) (entries ++ [entry])

inductive WritesObject : List Char → List (String × RawText) → Prop where
  | empty {before between after : List Char} :
    AllBlank before → AllBlank between → AllBlank after →
      WritesObject (before ++ '\x7b' :: (between ++ '\x7d' :: after)) []
  | entries {before inner after : List Char} {entries : List (String × RawText)} :
    AllBlank before → WritesEntries inner entries → AllBlank after →
      WritesObject (before ++ '\x7b' :: (inner ++ '\x7d' :: after)) entries

theorem isBody_of_stringOfBody? {body : List Char} {name : String}
    (h : stringOfBody? body = some name) : IsBody body := by
  obtain ⟨pieces, hpieces⟩ := pieces?_of_stringOfBody? h
  exact pieces?_isSome_iff.1 (by rw [hpieces]; rfl)

theorem ofList_append_singleton (entries : List (String × RawText)) (entry : String × RawText) :
    (.ofList (entries ++ [entry]) : RawObject) =
      (SortedMap.ofList entries).insert entry.1 entry.2 := by
  rw [SortedMap.ofList, List.foldl_append]
  rfl

/-! ### Lexemes -/

theorem lex_blanks_mark {blanks : List Char} {c : Char} {mark : Token} (hblanks : AllBlank blanks)
    (rest : List Char) (h : Token.ofMark? c = some mark) :
    lex (blanks ++ c :: rest) = ⟨blanks, mark⟩ :: lex rest := by
  rw [lex_blanks_append hblanks, lex_mark rest h]
  simp [Lexeme.after]

theorem lex_blanks_body {blanks body : List Char} (hblanks : AllBlank blanks) (h : IsBody body)
    (rest : List Char) :
    lex (blanks ++ '"' :: (body ++ '"' :: rest)) = ⟨blanks, .string body⟩ :: lex rest := by
  rw [lex_blanks_append hblanks, lex_body_append h]
  simp [Lexeme.after]

theorem lex_blanks {blanks : List Char} (h : AllBlank blanks) : lex blanks = [] := by
  have hnil := lex_blanks_append h []
  rwa [List.append_nil] at hnil

namespace RawText

variable (raw : RawText) {space : List Char}

theorem lex_chars_ne_nil : lex raw.chars ≠ [] := by
  intro h
  have hrun := raw.run_grammar
  rw [h] at hrun
  cases hrun

theorem lex_blanks_chars_append {rest : List Char} (hspace : AllBlank space)
    (hrest : Delimits rest) :
    lex (space ++ (raw.chars ++ rest)) = lex (space ++ raw.chars) ++ lex rest := by
  rw [lex_blanks_append hspace, lex_blanks_append hspace, raw.lex_append hrest]
  cases hlex : lex raw.chars with
  | nil => exact absurd hlex raw.lex_chars_ne_nil
  | cons l ls => rfl

theorem flatMap_text_lex_blanks (hspace : AllBlank space) :
    (lex (space ++ raw.chars)).flatMap Lexeme.text = space ++ raw.chars := by
  rw [lex_blanks_append hspace]
  have htext := raw.flatMap_text_lex
  cases hlex : lex raw.chars with
  | nil => exact absurd hlex raw.lex_chars_ne_nil
  | cons l ls =>
    rw [hlex] at htext
    rw [← htext]
    simp [Lexeme.text, Lexeme.after]

end RawText

/-! ### From the text to the map -/

namespace RawReading

variable {entries : RawObject} {rest : List Char}

theorem foldlM_blanks_raw (entries : RawObject) (name : String) (raw : RawText) {space : List Char}
    (hspace : AllBlank space) :
    (lex (space ++ raw.chars)).foldlM step? (.value entries name 0 []) =
      some (.value entries name 0 (space ++ raw.chars)) := by
  have hrun : grammar.run (.value []) ((lex (space ++ raw.chars)).map (·.token)) =
      .ok (.done () []) := by
    change grammar.run (.value []) (tokens (space ++ raw.chars)) = _
    rw [tokens_blanks_append hspace]
    exact raw.run_grammar
  have hread : (lex (space ++ raw.chars)).foldlM step? (.value entries name 0 []) =
      some (.value entries name 0 ([] ++ (lex (space ++ raw.chars)).flatMap Lexeme.text)) :=
    foldlM_value hrun
  rwa [raw.flatMap_text_lex_blanks hspace] at hread

/-- Reading an entry up to the mark after it. -/
theorem foldlM_writesEntry {text : List Char} {entry : String × RawText}
    (h : WritesEntry text entry) {c : Char} {mark : Token} (hmark : Token.ofMark? c = some mark) :
    ∃ space after, RawText.ofChars? (space ++ entry.2.chars) = some entry.2 ∧
      (lex (text ++ c :: rest)).foldlM step? (.next entries) =
        (⟨after, mark⟩ :: lex rest).foldlM step?
          (.value entries entry.1 0 (space ++ entry.2.chars)) := by
  obtain ⟨hbefore, hbody, hbetween, hspace, hafter⟩ := h
  next before body between space after name raw =>
  have hraw : RawText.ofChars? (space ++ raw.chars) = some raw :=
    ofChars?_eq_some_iff.2 ⟨space, [], hspace, allBlank_nil, by rw [List.append_nil]⟩
  refine ⟨space, after, hraw, ?_⟩
  have hname : step? (.next entries) ⟨before, .string body⟩ = some (.colon entries name) := by
    change (stringOfBody? body).map _ = _
    rw [hbody]
    rfl
  have hdelimits : Delimits (after ++ c :: rest) :=
    (delimits_mark rest hmark).blanks_append hafter
  simp only [List.append_assoc, List.cons_append]
  rw [lex_blanks_body hbefore (isBody_of_stringOfBody? hbody),
    lex_blanks_mark (c := ':') hbetween _ rfl, raw.lex_blanks_chars_append hspace hdelimits,
    lex_blanks_mark hafter _ hmark, List.foldlM_cons, hname]
  change (lex (space ++ raw.chars) ++ _).foldlM step? (.value entries name 0 []) = _
  rw [List.foldlM_append, foldlM_blanks_raw entries name raw hspace]
  rfl

/-- Where an object could also end, an entry is read as after a comma. -/
theorem foldlM_first_writesEntry {text : List Char} {entry : String × RawText}
    (h : WritesEntry text entry) (rest : List Char) :
    (lex (text ++ rest)).foldlM step? .first = (lex (text ++ rest)).foldlM step? (.next .empty) := by
  obtain ⟨hbefore, hbody, -, -, -⟩ := h
  simp only [List.append_assoc, List.cons_append]
  rw [lex_blanks_body hbefore (isBody_of_stringOfBody? hbody), List.foldlM_cons, List.foldlM_cons]
  rfl

theorem close?_of_ofChars? {text : List Char} {raw : RawText} {name : String}
    (h : RawText.ofChars? text = some raw) :
    close? entries name text = some (entries.insert name raw) := by
  rw [close?, h]
  rfl

/-- Reading entries and the comma after them. -/
theorem foldlM_writesEntries_comma {text : List Char} {list : List (String × RawText)}
    (h : WritesEntries text list) (rest : List Char) :
    (lex (text ++ ',' :: rest)).foldlM step? .first =
      (lex rest).foldlM step? (.next (.ofList list)) := by
  have hcomma : ∀ {text : List Char} {entry : String × RawText} (before : RawObject)
      (rest : List Char), WritesEntry text entry →
      (lex (text ++ ',' :: rest)).foldlM step? (.next before) =
        (lex rest).foldlM step? (.next (before.insert entry.1 entry.2)) := by
    intro text entry before rest h
    obtain ⟨space, after, hraw, hread⟩ :=
      foldlM_writesEntry (c := ',') h rfl
    rw [hread, List.foldlM_cons]
    change (close? before entry.1 (space ++ entry.2.chars)).map RawReading.next >>= _ = _
    rw [close?_of_ofChars? hraw]
    rfl
  induction h generalizing rest with
  | one h =>
    rw [foldlM_first_writesEntry h, hcomma .empty rest h]
    rfl
  | more _ h ih =>
    rw [List.append_assoc, List.cons_append, ih, hcomma _ rest h, ofList_append_singleton]

/-- Reading entries and the end of the object after them. -/
theorem foldlM_writesEntries_end {text : List Char} {list : List (String × RawText)}
    (h : WritesEntries text list) (rest : List Char) :
    (lex (text ++ '\x7d' :: rest)).foldlM step? .first =
      (lex rest).foldlM step? (.done (.ofList list)) := by
  have hend : ∀ {text : List Char} {entry : String × RawText} (before : RawObject),
      WritesEntry text entry →
      (lex (text ++ '\x7d' :: rest)).foldlM step? (.next before) =
        (lex rest).foldlM step? (.done (before.insert entry.1 entry.2)) := by
    intro text entry before h
    obtain ⟨space, after, hraw, hread⟩ :=
      foldlM_writesEntry (c := '\x7d') h rfl
    rw [hread, List.foldlM_cons]
    change (close? before entry.1 (space ++ entry.2.chars)).map RawReading.done >>= _ = _
    rw [close?_of_ofChars? hraw]
    rfl
  cases h with
  | one h =>
    rw [foldlM_first_writesEntry h, hend .empty h]
    rfl
  | more hfirst h =>
    rw [List.append_assoc, List.cons_append, foldlM_writesEntries_comma hfirst, hend _ h,
      ofList_append_singleton]

end RawReading

namespace RawObject

theorem ofChars?_of_writesObject {text : List Char} {entries : List (String × RawText)}
    (h : WritesObject text entries) : ofChars? text = some (.ofList entries) := by
  have hread : (lex text).foldlM RawReading.step? .start = some (.done (.ofList entries)) := by
    cases h with
    | empty hbefore hbetween hafter =>
      rw [lex_blanks_mark (c := '\x7b') hbefore _ rfl, lex_blanks_mark (c := '\x7d') hbetween _ rfl,
        lex_blanks hafter]
      rfl
    | entries hbefore hinner hafter =>
      rw [lex_blanks_mark (c := '\x7b') hbefore _ rfl, List.foldlM_cons]
      change (lex _).foldlM RawReading.step? .first = _
      rw [RawReading.foldlM_writesEntries_end hinner, lex_blanks hafter]
      rfl
  rw [ofChars?, hread]

end RawObject

/-! ### From the map to the text -/

/-- What stands in an object before a further entry: nothing, or some entries and a comma. -/
def WritesBefore (text : List Char) (entries : List (String × RawText)) : Prop :=
  text = [] ∧ entries = [] ∨ ∃ inner, WritesEntries inner entries ∧ text = inner ++ [',']

theorem writesEntries_append {before text : List Char} {entries : List (String × RawText)}
    {entry : String × RawText} (hbefore : WritesBefore before entries) (h : WritesEntry text entry) :
    WritesEntries (before ++ text) (entries ++ [entry]) := by
  rcases hbefore with ⟨rfl, rfl⟩ | ⟨inner, hinner, rfl⟩
  · exact .one h
  · rw [List.append_assoc]
    exact .more hinner h

namespace RawReading

/-- The object has been opened and these entries have been read of it; then this stands there. -/
def Opened (entries : RawObject) (text rest : List Char) : Prop :=
  ∃ before inner list, AllBlank before ∧ WritesBefore inner list ∧ entries = .ofList list ∧
    text = before ++ '\x7b' :: (inner ++ rest)

/-- The same with the name of an entry. -/
def Named (entries : RawObject) (name : String) (text rest : List Char) : Prop :=
  ∃ before body, AllBlank before ∧ stringOfBody? body = some name ∧
    Opened entries text (before ++ '"' :: (body ++ '"' :: rest))

/-- What has been read of a text. -/
def Follows : RawReading → List Char → Prop
  | .start, text => text = []
  | .first, text => ∃ before, AllBlank before ∧ text = before ++ ['\x7b']
  | .next entries, text => Opened entries text []
  | .colon entries name, text => Named entries name text []
  | .value entries name _ read, text =>
    ∃ between, AllBlank between ∧ Named entries name text (between ++ ':' :: read)
  | .done entries, text => ∃ list, WritesObject text list ∧ entries = .ofList list

variable {entries : RawObject} {name : String} {depth : Nat} {read text : List Char} {l : Lexeme}
  {next : RawReading}

/-- Inside a value a token is added to it, or ends it. -/
theorem value?_cases (h : value? entries name depth read l = some next) :
    (∃ depth, next = .value entries name depth (read ++ l.text)) ∨
      ∃ raw, RawText.ofChars? read = some raw ∧
        (l.token = .comma ∧ next = .next (entries.insert name raw) ∨
          l.token = .endObject ∧ next = .done (entries.insert name raw)) := by
  unfold value? at h
  split at h
  · next htoken =>
    obtain ⟨more, hclose, rfl⟩ := Option.map_eq_some_iff.1 h
    obtain ⟨raw, hraw, rfl⟩ := Option.map_eq_some_iff.1 hclose
    exact .inr ⟨raw, hraw, .inl ⟨htoken, rfl⟩⟩
  · next htoken =>
    obtain ⟨more, hclose, rfl⟩ := Option.map_eq_some_iff.1 h
    obtain ⟨raw, hraw, rfl⟩ := Option.map_eq_some_iff.1 hclose
    exact .inr ⟨raw, hraw, .inr ⟨htoken, rfl⟩⟩
  · cases h
  all_goals exact .inl ⟨_, (Option.some.inj h).symm⟩

/-- An entry is complete where its value ends. -/
theorem Named.writesEntries {between : List Char} {raw : RawText} {blanks : List Char}
    (h : Named entries name text (between ++ ':' :: read)) (hbetween : AllBlank between)
    (hraw : RawText.ofChars? read = some raw) (hblanks : AllBlank blanks) :
    ∃ before inner list, AllBlank before ∧ WritesEntries inner list ∧
      entries.insert name raw = .ofList list ∧ text ++ blanks = before ++ '\x7b' :: inner := by
  obtain ⟨front, body, hfront, hbody, before, inner, list, hbefore, hinner, rfl, rfl⟩ := h
  obtain ⟨space, after, hspace, hafter, rfl⟩ := ofChars?_eq_some_iff.1 hraw
  have hend : AllBlank (after ++ blanks) := fun c hc =>
    (List.mem_append.1 hc).elim (hafter c) (hblanks c)
  refine ⟨before, _, _, hbefore,
    writesEntries_append hinner (.intro hfront hbody hbetween hspace hend),
    (ofList_append_singleton list (name, raw)).symm, ?_⟩
  simp

theorem follows_name? {token : Token} {blanks : List Char} (h : name? entries token = some next)
    (hblanks : AllBlank blanks) (hopen : Opened entries text []) :
    next.Follows (text ++ (blanks ++ token.text)) := by
  cases token with
  | string body =>
    obtain ⟨name, hbody, rfl⟩ := Option.map_eq_some_iff.1 h
    obtain ⟨before, inner, list, hbefore, hinner, rfl, rfl⟩ := hopen
    exact ⟨blanks, body, hblanks, hbody, before, inner, list, hbefore, hinner, rfl,
      by simp [Token.text]⟩
  | _ => cases h

theorem follows_value? (h : value? entries name depth read l = some next)
    (hblanks : AllBlank l.blanks) (hr : (RawReading.value entries name depth read).Follows text) :
    next.Follows (text ++ l.text) := by
  obtain ⟨between, hbetween, hnamed⟩ := hr
  rcases value?_cases h with ⟨depth, rfl⟩ | ⟨raw, hraw, ⟨htoken, rfl⟩ | ⟨htoken, rfl⟩⟩
  · obtain ⟨front, body, hfront, hbody, before, inner, list, hbefore, hinner, rfl, rfl⟩ := hnamed
    exact ⟨between, hbetween, front, body, hfront, hbody, before, inner, list, hbefore, hinner, rfl,
      by simp⟩
  · obtain ⟨before, inner, list, hbefore, hinner, hlist, htext⟩ :=
      hnamed.writesEntries hbetween hraw hblanks
    rw [Lexeme.text, htoken, ← List.append_assoc, htext]
    exact ⟨before, _, list, hbefore, .inr ⟨inner, hinner, rfl⟩, hlist, by simp [Token.text]⟩
  · obtain ⟨before, inner, list, hbefore, hinner, hlist, htext⟩ :=
      hnamed.writesEntries hbetween hraw hblanks
    rw [Lexeme.text, htoken, ← List.append_assoc, htext]
    refine ⟨list, ?_, hlist⟩
    have hobject := WritesObject.entries hbefore hinner allBlank_nil
    simpa [Token.text] using hobject

/-- A step of the reader adds its token to what the text of the object accounts for. -/
theorem follows_step? {r : RawReading} (h : step? r l = some next) (hblanks : AllBlank l.blanks)
    (hr : r.Follows text) : next.Follows (text ++ l.text) := by
  obtain ⟨blanks, token⟩ := l
  cases r with
  | start =>
    obtain rfl : text = [] := hr
    cases token with
    | beginObject =>
      obtain rfl := Option.some.inj h
      exact ⟨blanks, hblanks, rfl⟩
    | _ => cases h
  | first =>
    obtain ⟨before, hbefore, rfl⟩ := hr
    by_cases hend : token = .endObject
    · subst hend
      obtain rfl := Option.some.inj h
      have hobject := WritesObject.empty hbefore hblanks allBlank_nil
      exact ⟨[], by simpa [Lexeme.text, Token.text] using hobject, rfl⟩
    · have hname : name? .empty token = some next := by
        cases token <;> first | exact h | exact absurd rfl hend
      exact follows_name? hname hblanks
        ⟨before, [], [], hbefore, .inl ⟨rfl, rfl⟩, rfl, rfl⟩
  | next entries => exact follows_name? h hblanks hr
  | colon entries name =>
    obtain ⟨front, body, hfront, hbody, before, inner, list, hbefore, hinner, rfl, rfl⟩ := hr
    cases token with
    | colon =>
      obtain rfl := Option.some.inj h
      exact ⟨blanks, hblanks, front, body, hfront, hbody, before, inner, list, hbefore, hinner, rfl,
        by simp [Lexeme.text, Token.text]⟩
    | _ => cases h
  | value entries name depth value => exact follows_value? h hblanks hr
  | done entries => cases h

theorem follows_foldlM {r last : RawReading} {ls : List Lexeme}
    (h : ls.foldlM step? r = some last) (hblanks : ∀ l ∈ ls, AllBlank l.blanks)
    (hr : r.Follows text) : last.Follows (text ++ ls.flatMap Lexeme.text) := by
  induction ls generalizing r text with
  | nil =>
    obtain rfl := Option.some.inj h
    simpa using hr
  | cons l ls ih =>
    rw [List.foldlM_cons] at h
    obtain ⟨next, hstep, hrest⟩ := Option.bind_eq_some_iff.1 h
    have hnext := follows_step? hstep (hblanks l List.mem_cons_self) hr
    have hlast := ih hrest (fun l' hl' => hblanks l' (List.mem_cons_of_mem _ hl')) hnext
    rwa [List.flatMap_cons, ← List.append_assoc]

end RawReading

theorem WritesObject.blanks_append {text after : List Char} {entries : List (String × RawText)}
    (h : WritesObject text entries) (hafter : AllBlank after) :
    WritesObject (text ++ after) entries := by
  have hend : ∀ {blanks : List Char}, AllBlank blanks → AllBlank (blanks ++ after) :=
    fun hblanks c hc => (List.mem_append.1 hc).elim (hblanks c) (hafter c)
  cases h with
  | empty hbefore hbetween hrest => simpa using WritesObject.empty hbefore hbetween (hend hrest)
  | entries hbefore hinner hrest => simpa using WritesObject.entries hbefore hinner (hend hrest)

namespace RawObject

/-- A text is read as a map if and only if it writes the entries of that map, the last one of each
    name. -/
theorem ofChars?_eq_some_iff {text : List Char} {entries : RawObject} :
    ofChars? text = some entries ↔ ∃ list, WritesObject text list ∧ entries = .ofList list := by
  constructor
  · intro h
    unfold ofChars? at h
    split at h
    · next last hread =>
      obtain rfl := Option.some.inj h
      have hstart : RawReading.start.Follows [] := rfl
      obtain ⟨list, hlist, heq⟩ := RawReading.follows_foldlM hread allBlank_blanks_of_lex hstart
      obtain ⟨trailing, htrailing, htext⟩ := flatMap_text_lex text
      rw [htext]
      exact ⟨list, hlist.blanks_append htrailing, heq⟩
    · cases h
  · rintro ⟨list, hlist, rfl⟩
    exact ofChars?_of_writesObject hlist

/-- Bytes are read as a map if and only if they are the UTF-8 of a text that writes its entries. -/
theorem ofBytes?_eq_some_iff {bytes : Bytes} {entries : RawObject} :
    ofBytes? bytes = some entries ↔
      ∃ text list, bytes = Utf8.encodeChars text ∧ WritesObject text list ∧
        entries = .ofList list := by
  constructor
  · intro h
    unfold ofBytes? at h
    split at h
    · next text hsplit =>
      obtain ⟨list, hlist, heq⟩ := ofChars?_eq_some_iff.1 h
      exact ⟨text, list, (Utf8.encodeChars_of_split hsplit).symm, hlist, heq⟩
    · cases h
  · rintro ⟨text, list, rfl, hlist, rfl⟩
    rw [ofBytes?, Utf8.split_encodeChars]
    exact ofChars?_of_writesObject hlist

end RawObject

end TypedStore.Json
