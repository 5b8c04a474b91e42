/-
  TypedStore/Proofs/Codec/ValueText.lean
  ======================================
  **A text is accepted as one value if and only if the grammar derives it.**

  From a derivation to the machine: the tokens of a phrase are the same whatever follows it
  (`tokens_append`), and reading them takes the machine through the phrase, inside any open containers
  (`readThrough_of_isPhrase`). From the machine to a derivation: what has been read is always made of
  finished phrases and of one unfinished container for each frame of the stack (`Reading.Follows`), so
  what stands there at the end is a value (`isPhrase_of_isValueText`).

  The raw texts are thus exactly the values of the grammar (`exists_rawText_iff`).
-/
import TypedStore.Proofs.Codec.Phrases
import TypedStore.Proofs.Codec.RawObject

namespace TypedStore.Json

/-! ### Blanks before a text -/

/-- The lexeme with more blanks before it. -/
def Lexeme.after (blanks : List Char) (l : Lexeme) : Lexeme := ⟨blanks ++ l.blanks, l.token⟩

def Cut.after (front : List Char) : Cut → Cut
  | .between blanks => .between (blanks ++ front.reverse)
  | .word blanks text => .word (blanks ++ front.reverse) text
  | .string blanks body escaped => .string (blanks ++ front.reverse) body escaped

theorem lexFrom_after (front : List Char) (cut : Cut) (text : List Char) :
    lexFrom (cut.after front) text = (lexFrom cut text).modifyHead (Lexeme.after front) := by
  fun_induction lexFrom cut text <;> simp_all [Cut.after, lexFrom, Lexeme.after]

theorem lex_blanks_append {blanks : List Char} (h : AllBlank blanks) (text : List Char) :
    lex (blanks ++ text) = (lex text).modifyHead (Lexeme.after blanks) := by
  induction blanks with
  | nil => cases hlex : lex text <;> simp [hlex, Lexeme.after]
  | cons c blanks ih =>
    have hcut : lex (c :: (blanks ++ text)) =
        lexFrom ((Cut.between []).after [c]) (blanks ++ text) := by
      simp [lex, lexFrom, h c List.mem_cons_self, Cut.after]
    rw [List.cons_append, hcut, lexFrom_after]
    change (lex (blanks ++ text)).modifyHead _ = _
    rw [ih fun d hd => h d (List.mem_cons_of_mem _ hd)]
    cases lex text <;> simp [Lexeme.after]

def Cut.blanks : Cut → List Char
  | .between blanks | .word blanks _ | .string blanks _ _ => blanks

theorem allBlank_blanks_of_lexFrom {cut : Cut} {text : List Char} (h : AllBlank cut.blanks) :
    ∀ l ∈ lexFrom cut text, AllBlank l.blanks := by
  have hreverse : ∀ {blanks : List Char}, AllBlank blanks → AllBlank blanks.reverse :=
    fun h c hc => h c (List.mem_reverse.1 hc)
  fun_induction lexFrom cut text with
  | case1 => simp
  | case2 | case3 =>
    intro l hl
    obtain rfl := List.mem_singleton.1 hl
    exact hreverse h
  | case4 blanks c rest hc ih =>
    exact ih fun d hd => (List.mem_cons.1 hd).elim (fun heq => heq ▸ hc) (h d)
  | case5 blanks rest _ ih => exact ih h
  | case6 blanks c rest _ _ mark _ ih =>
    exact List.forall_mem_cons.2 ⟨hreverse h, ih allBlank_nil⟩
  | case7 blanks c rest _ _ _ ih => exact ih h
  | case8 blanks word c rest hc ih =>
    exact List.forall_mem_cons.2 ⟨hreverse h, ih fun d hd => List.mem_singleton.1 hd ▸ hc⟩
  | case9 blanks word rest _ ih => exact List.forall_mem_cons.2 ⟨hreverse h, ih allBlank_nil⟩
  | case10 blanks word c rest _ _ mark _ ih =>
    exact List.forall_mem_cons.2 ⟨hreverse h, List.forall_mem_cons.2 ⟨allBlank_nil, ih allBlank_nil⟩⟩
  | case11 blanks word c rest _ _ _ ih => exact ih h
  | case12 blanks body c rest ih => exact ih h
  | case13 blanks body rest ih => exact ih h
  | case14 blanks body rest _ ih => exact List.forall_mem_cons.2 ⟨hreverse h, ih allBlank_nil⟩
  | case15 blanks body c rest _ _ ih => exact ih h

theorem allBlank_blanks_of_lex {text : List Char} : ∀ l ∈ lex text, AllBlank l.blanks :=
  allBlank_blanks_of_lexFrom allBlank_nil

/-! ### The tokens of phrases -/

theorem tokens_blanks_append {blanks : List Char} (h : AllBlank blanks) (text : List Char) :
    tokens (blanks ++ text) = tokens text := by
  rw [tokens, lex_blanks_append h, tokens]
  cases lex text <;> rfl

theorem tokens_blanks {blanks : List Char} (h : AllBlank blanks) : tokens blanks = [] := by
  have hnil := tokens_blanks_append h []
  rwa [List.append_nil] at hnil

theorem tokens_mark {c : Char} {mark : Token} (rest : List Char)
    (h : Token.ofMark? c = some mark) : tokens (c :: rest) = mark :: tokens rest := by
  rw [tokens, lex_mark rest h]
  rfl

theorem tokens_blanks_mark {blanks : List Char} {c : Char} {mark : Token} (hblanks : AllBlank blanks)
    (rest : List Char) (h : Token.ofMark? c = some mark) :
    tokens (blanks ++ c :: rest) = mark :: tokens rest := by
  rw [tokens_blanks_append hblanks, tokens_mark rest h]

theorem tokens_word_append {text rest : List Char} (h : IsWord text) (hrest : Delimits rest) :
    tokens (text ++ rest) = .word text :: tokens rest := by
  obtain ⟨hne, hword⟩ := h.isWordChar
  rw [tokens, lex_word_append hne hword hrest]
  rfl

theorem IsHexDigit.ne {c : Char} (h : IsHexDigit c) : c ≠ '\\' ∧ c ≠ '"' := by
  constructor <;> · rintro rfl; revert h; simp [IsHexDigit]

/-- A body is cut off at the quote that closes it. -/
theorem lexFrom_isBody {body : List Char} (h : IsBody body) (blanks read rest : List Char) :
    lexFrom (.string blanks read false) (body ++ '"' :: rest) =
      ⟨blanks.reverse, .string (read.reverse ++ body)⟩ :: lex rest := by
  induction h generalizing read with
  | nil => simp [lexFrom, lex]
  | @plain c body hplain _ ih =>
    have hne : c ≠ '"' ∧ c ≠ '\\' := by
      simp only [isPlain, Bool.and_eq_true, decide_eq_true_eq] at hplain
      exact ⟨hplain.1.2, hplain.2⟩
    simp only [List.cons_append, lexFrom, hne.1, hne.2, ↓reduceIte, ih]
    simp
  | short _ _ ih =>
    simp only [List.cons_append, lexFrom, ↓reduceIte, ih]
    simp
  | unit ha hb hc hd _ ih =>
    simp only [List.cons_append, lexFrom, ↓reduceIte, ha.ne, hb.ne, hc.ne, hd.ne, ih]
    simp

theorem lex_body_append {body : List Char} (h : IsBody body) (rest : List Char) :
    lex ('"' :: (body ++ '"' :: rest)) = ⟨[], .string body⟩ :: lex rest := by
  have hbody := lexFrom_isBody h [] [] rest
  simpa [lex, lexFrom, isBlank] using hbody

theorem tokens_body_append {body : List Char} (h : IsBody body) (rest : List Char) :
    tokens ('"' :: (body ++ '"' :: rest)) = .string body :: tokens rest := by
  rw [tokens, lex_body_append h]
  rfl

theorem not_isWordChar_of_isBlank {c : Char} (h : isBlank c) : ¬ IsWordChar c := by
  rintro ⟨hblank, -⟩
  rw [h] at hblank
  cases hblank

theorem Delimits.blanks_append {blanks rest : List Char} (hblanks : AllBlank blanks)
    (h : Delimits rest) : Delimits (blanks ++ rest) := by
  cases blanks with
  | nil => exact h
  | cons c blanks =>
    exact delimits_cons (not_isWordChar_of_isBlank (hblanks c List.mem_cons_self))

/-- A phrase gives the tokens that it has by itself, if what follows it does not go on with a word. -/
theorem tokens_append {p : Phrase} {text rest : List Char} (h : IsPhrase p text)
    (hrest : Delimits rest) : tokens (text ++ rest) = tokens text ++ tokens rest := by
  induction h generalizing rest with
  | @word text hword =>
    have hself := tokens_word_append hword delimits_nil
    rw [List.append_nil] at hself
    rw [tokens_word_append hword hrest, hself]
    rfl
  | string hbody =>
    have hself := tokens_body_append hbody []
    simp only [List.cons_append, List.append_assoc, List.nil_append]
    rw [tokens_body_append hbody, hself]
    rfl
  | emptyArray hblanks =>
    simp only [List.cons_append, List.append_assoc, List.nil_append]
    rw [tokens_mark (c := '[') _ rfl, tokens_mark (c := '[') _ rfl,
      tokens_blanks_mark (c := ']') hblanks _ rfl, tokens_blanks_mark (c := ']') hblanks _ rfl]
    rfl
  | array _ ih =>
    simp only [List.cons_append, List.append_assoc, List.nil_append]
    rw [tokens_mark (c := '[') _ rfl, tokens_mark (c := '[') _ rfl,
      ih (delimits_mark (c := ']') _ rfl), ih (delimits_mark (c := ']') _ rfl),
      tokens_mark (c := ']') _ rfl, tokens_mark (c := ']') _ rfl]
    simp [tokens, lex, lexFrom]
  | emptyObject hblanks =>
    simp only [List.cons_append, List.append_assoc, List.nil_append]
    rw [tokens_mark (c := '\x7b') _ rfl, tokens_mark (c := '\x7b') _ rfl,
      tokens_blanks_mark (c := '\x7d') hblanks _ rfl,
      tokens_blanks_mark (c := '\x7d') hblanks _ rfl]
    rfl
  | object _ ih =>
    simp only [List.cons_append, List.append_assoc, List.nil_append]
    rw [tokens_mark (c := '\x7b') _ rfl, tokens_mark (c := '\x7b') _ rfl,
      ih (delimits_mark (c := '\x7d') _ rfl), ih (delimits_mark (c := '\x7d') _ rfl),
      tokens_mark (c := '\x7d') _ rfl, tokens_mark (c := '\x7d') _ rfl]
    simp [tokens, lex, lexFrom]
  | element hbefore _ hafter ih =>
    simp only [List.append_assoc]
    rw [tokens_blanks_append hbefore, tokens_blanks_append hbefore,
      ih (hrest.blanks_append hafter), tokens_blanks_append hafter]
    have hself := ih (delimits_nil.blanks_append hafter)
    rw [List.append_nil, tokens_blanks hafter, List.append_nil] at hself
    rw [hself]
  | firstElement _ ih => exact ih hrest
  | nextElement _ _ ihs ih =>
    simp only [List.append_assoc, List.cons_append]
    rw [ihs (delimits_mark (c := ',') _ rfl), ihs (delimits_mark (c := ',') _ rfl),
      tokens_mark (c := ',') _ rfl, tokens_mark (c := ',') _ rfl, ih hrest, List.append_assoc]
    rfl
  | member hbefore hbody hbetween _ ih =>
    simp only [List.append_assoc, List.cons_append]
    rw [tokens_blanks_append hbefore, tokens_blanks_append hbefore, tokens_body_append hbody,
      tokens_body_append hbody, tokens_blanks_mark (c := ':') hbetween _ rfl,
      tokens_blanks_mark (c := ':') hbetween _ rfl, ih hrest]
    rfl
  | firstMember _ ih => exact ih hrest
  | nextMember _ _ ihs ih =>
    simp only [List.append_assoc, List.cons_append]
    rw [ihs (delimits_mark (c := ',') _ rfl), ihs (delimits_mark (c := ',') _ rfl),
      tokens_mark (c := ',') _ rfl, tokens_mark (c := ',') _ rfl, ih hrest, List.append_assoc]
    rfl

/-! ### From the grammar to the machine -/

/-- Reading these tokens takes the machine through a phrase, whatever is open around it. -/
def Phrase.ReadThrough : Phrase → List Token → Prop
  | .value, ts | .element, ts =>
    ∀ stack, grammar.run (.value stack) ts = .ok (.done () stack)
  | .elements, ts =>
    ∀ items stack, ∃ more,
      grammar.run (.value (.array items :: stack)) ts = .ok (.done () (.array more :: stack))
  | .member, ts | .members, ts =>
    ∀ members stack, ∃ more name,
      grammar.run (.nextName members stack) ts = .ok (.done () (.object more name :: stack))

theorem Build.run_append_of_ok {α : Type} {b : Build α} {r next : Reading α} {s t : List Token}
    (h : b.run r s = .ok next) : b.run r (s ++ t) = b.run next t := by
  rw [Build.run_append, h]
  rfl

theorem run_grammar_word {text : List Char} (h : IsWord text) (stack : List (Frame Unit)) :
    grammar.run (.value stack) [.word text] = .ok (.done () stack) := by
  have hword : grammar.word text = some () := by
    refine if_pos ?_
    rw [NumberText.ofChars?_isSome_iff]
    exact h
  have hstep : grammar.step (.value stack) (.word text) = .ok (.done () stack) := by
    change ((grammar.word text).map (Reading.done · stack)).elim _ _ = _
    rw [hword]
    rfl
  rw [Build.run, hstep]
  rfl

theorem run_grammar_string {body : List Char} (h : IsBody body) (stack : List (Frame Unit)) :
    grammar.run (.value stack) [.string body] = .ok (.done () stack) := by
  obtain ⟨pieces, hpieces⟩ := Option.isSome_iff_exists.1 (pieces?_isSome_iff.2 h)
  have hstep : grammar.step (.value stack) (.string body) = .ok (.done () stack) := by
    change (((pieces? body).map fun _ => ()).map (Reading.done · stack)).elim _ _ = _
    rw [hpieces]
    rfl
  rw [Build.run, hstep]
  rfl

theorem grammar_name {body : List Char} (h : IsBody body) (members : List (String × Unit)) :
    grammar.name members body = .ok "" := by
  obtain ⟨pieces, hpieces⟩ := Option.isSome_iff_exists.1 (pieces?_isSome_iff.2 h)
  change (pieces? body).elim _ _ = _
  rw [hpieces]
  rfl

theorem step_grammar_name {body : List Char} (h : IsBody body) (members : List (String × Unit))
    (stack : List (Frame Unit)) :
    grammar.step (.nextName members stack) (.string body) = .ok (.colon members "" stack) := by
  change (grammar.name members body).map _ = _
  rw [grammar_name h]
  rfl

/-- Where an array could also end, an element is read as after a comma. -/
theorem run_firstItem_of_run {ts : List Token} {stack : List (Frame Unit)} {last : Reading Unit}
    (hne : ∀ stack, last ≠ .value stack)
    (h : grammar.run (.value (.array [] :: stack)) ts = .ok last) :
    grammar.run (.firstItem stack) ts = .ok last := by
  cases ts with
  | nil => exact absurd (Except.ok.inj h).symm (hne _)
  | cons token ts =>
    by_cases hend : token = .endArray
    · subst hend
      cases h
    · rw [Build.run, Build.step_firstItem _ hend]
      exact h

/-- Where an object could also end, a member is read as after a comma. -/
theorem run_firstName_of_run {ts : List Token} {stack : List (Frame Unit)} {last : Reading Unit}
    (hne : ∀ members stack, last ≠ .nextName members stack)
    (h : grammar.run (.nextName [] stack) ts = .ok last) :
    grammar.run (.firstName stack) ts = .ok last := by
  cases ts with
  | nil => exact absurd (Except.ok.inj h).symm (hne _ _)
  | cons token ts =>
    by_cases hend : token = .endObject
    · subst hend
      cases h
    · rw [Build.run, Build.step_firstName _ hend]
      exact h

theorem tokens_self {p : Phrase} {c : Char} {mark : Token} {text rest : List Char}
    (h : IsPhrase p text) (hmark : Token.ofMark? c = some mark) :
    tokens (text ++ c :: rest) = tokens text ++ mark :: tokens rest := by
  rw [tokens_append h (delimits_mark rest hmark), tokens_mark rest hmark]

theorem readThrough_of_isPhrase {p : Phrase} {text : List Char} (h : IsPhrase p text) :
    p.ReadThrough (tokens text) := by
  induction h with
  | word hword =>
    intro stack
    have hself := tokens_word_append hword delimits_nil
    rw [List.append_nil] at hself
    rw [hself]
    exact run_grammar_word hword stack
  | string hbody =>
    intro stack
    rw [tokens_body_append hbody]
    exact run_grammar_string hbody stack
  | emptyArray hblanks =>
    intro stack
    rw [tokens_mark (c := '[') _ rfl, tokens_blanks_mark (c := ']') hblanks _ rfl]
    rfl
  | array hinner ih =>
    intro stack
    rw [tokens_mark (c := '[') _ rfl, tokens_self (c := ']') hinner rfl]
    obtain ⟨items, hrun⟩ := ih [] stack
    change grammar.run (.firstItem stack) _ = _
    rw [Build.run_append_of_ok (run_firstItem_of_run (by simp) hrun)]
    rfl
  | emptyObject hblanks =>
    intro stack
    rw [tokens_mark (c := '\x7b') _ rfl, tokens_blanks_mark (c := '\x7d') hblanks _ rfl]
    rfl
  | object hinner ih =>
    intro stack
    rw [tokens_mark (c := '\x7b') _ rfl, tokens_self (c := '\x7d') hinner rfl]
    obtain ⟨members, name, hrun⟩ := ih [] stack
    change grammar.run (.firstName stack) _ = _
    rw [Build.run_append_of_ok (run_firstName_of_run (by simp) hrun)]
    rfl
  | element hbefore hvalue hafter ih =>
    intro stack
    rw [tokens_blanks_append hbefore, tokens_append hvalue (by simpa using delimits_nil.blanks_append hafter),
      tokens_blanks hafter, List.append_nil]
    exact ih stack
  | firstElement _ ih =>
    intro items stack
    exact ⟨items, ih _⟩
  | nextElement hfirst _ ihs ih =>
    intro items stack
    obtain ⟨more, hrun⟩ := ihs items stack
    rw [tokens_self (c := ',') hfirst rfl, Build.run_append_of_ok hrun]
    exact ⟨() :: more, ih _⟩
  | member hbefore hbody hbetween _ ih =>
    intro members stack
    rw [tokens_blanks_append hbefore, tokens_body_append hbody,
      tokens_blanks_mark (c := ':') hbetween _ rfl, Build.run, step_grammar_name hbody]
    exact ⟨members, "", ih _⟩
  | firstMember _ ih => exact ih
  | nextMember hfirst _ ihs ih =>
    intro members stack
    obtain ⟨more, name, hrun⟩ := ihs members stack
    rw [tokens_self (c := ',') hfirst rfl, Build.run_append_of_ok hrun]
    exact ih _ stack

theorem isValueText_of_isPhrase {text : List Char} (h : IsPhrase .element text) :
    isValueText text := by
  have hrun : grammar.run (.value []) (tokens text) = .ok (.done () []) :=
    readThrough_of_isPhrase h []
  rw [isValueText, Build.read, hrun]
  rfl

/-! ### From the machine to the grammar -/

/-- What stands in a container before a further phrase: nothing, or some phrases and a comma. -/
def Phrase.IsStarted (p : Phrase) (text : List Char) : Prop :=
  text = [] ∨ ∃ texts, IsPhrase p texts ∧ text = texts ++ [',']

/-- What stands before a value that is inside these containers. -/
inductive LeadsInto : List (Frame Unit) → List Char → Prop where
  | nil : LeadsInto [] []
  | array {stack : List (Frame Unit)} {outer blanks inner : List Char} {items : List Unit} :
    LeadsInto stack outer → AllBlank blanks → Phrase.elements.IsStarted inner →
      LeadsInto (.array items :: stack) (outer ++ (blanks ++ '[' :: inner))
  | object {stack : List (Frame Unit)} {outer blanks inner before body between : List Char}
    {members : List (String × Unit)} {name : String} :
    LeadsInto stack outer → AllBlank blanks → Phrase.members.IsStarted inner → AllBlank before →
      IsBody body → AllBlank between →
      LeadsInto (.object members name :: stack)
        (outer ++ (blanks ++ '\x7b' :: (inner ++ (before ++ '"' :: (body ++ '"' :: (between ++ [':']))))))

/-- The container that was opened last, and what stands in it before a further phrase. -/
def OpensWith (p : Phrase) (mark : Char) (stack : List (Frame Unit)) (text rest : List Char) : Prop :=
  ∃ outer blanks inner, LeadsInto stack outer ∧ AllBlank blanks ∧ p.IsStarted inner ∧
    text = outer ++ (blanks ++ mark :: (inner ++ rest))

/-- What has been read where the machine stands. -/
def Reading.Follows : Reading Unit → List Char → Prop
  | .value stack, text => LeadsInto stack text
  | .firstItem stack, text =>
    ∃ outer blanks, LeadsInto stack outer ∧ AllBlank blanks ∧ text = outer ++ (blanks ++ ['['])
  | .firstName stack, text =>
    ∃ outer blanks, LeadsInto stack outer ∧ AllBlank blanks ∧ text = outer ++ (blanks ++ ['\x7b'])
  | .nextName _ stack, text => OpensWith .members '\x7b' stack text []
  | .colon _ _ stack, text =>
    ∃ before body, AllBlank before ∧ IsBody body ∧
      OpensWith .members '\x7b' stack text (before ++ '"' :: (body ++ ['"']))
  | .done _ stack, text =>
    ∃ outer blanks value, LeadsInto stack outer ∧ AllBlank blanks ∧ IsPhrase .value value ∧
      text = outer ++ (blanks ++ value)

theorem isPhrase_elements_append {inner text : List Char} (hinner : Phrase.elements.IsStarted inner)
    (h : IsPhrase .element text) : IsPhrase .elements (inner ++ text) := by
  rcases hinner with rfl | ⟨texts, htexts, rfl⟩
  · exact .firstElement h
  · rw [List.append_assoc]
    exact .nextElement htexts h

theorem isPhrase_members_append {inner text : List Char} (hinner : Phrase.members.IsStarted inner)
    (h : IsPhrase .member text) : IsPhrase .members (inner ++ text) := by
  rcases hinner with rfl | ⟨texts, htexts, rfl⟩
  · exact .firstMember h
  · rw [List.append_assoc]
    exact .nextMember htexts h

theorem isWord_of_grammar {text : List Char} {u : Unit} (h : grammar.word text = some u) :
    IsWord text := by
  change (if _ then _ else _) = _ at h
  split at h
  · next hword =>
    rw [NumberText.ofChars?_isSome_iff] at hword
    exact hword
  · cases h

section Steps

variable {stack : List (Frame Unit)} {next : Reading Unit} {token : Token} {text blanks : List Char}

theorem follows_beginValue (h : grammar.beginValue stack token = .ok next)
    (hblanks : AllBlank blanks) (hbefore : LeadsInto stack text) :
    next.Follows (text ++ (blanks ++ token.text)) := by
  cases token with
  | word word =>
    change ((grammar.word word).map (Reading.done · stack)).elim _ _ = _ at h
    cases hword : grammar.word word with
    | none => simp [hword] at h
    | some u =>
      obtain rfl : Reading.done u stack = next := by simpa [hword] using h
      exact ⟨text, blanks, word, hbefore, hblanks, .word (isWord_of_grammar hword), rfl⟩
  | string body =>
    change (((pieces? body).map fun _ => ()).map (Reading.done · stack)).elim _ _ = _ at h
    cases hpieces : pieces? body with
    | none => simp [hpieces] at h
    | some pieces =>
      obtain rfl : Reading.done () stack = next := by simpa [hpieces] using h
      have hbody : IsBody body := pieces?_isSome_iff.1 (by rw [hpieces]; rfl)
      exact ⟨text, blanks, _, hbefore, hblanks, .string hbody, rfl⟩
  | beginArray =>
    obtain rfl := Except.ok.inj h
    exact ⟨text, blanks, hbefore, hblanks, rfl⟩
  | beginObject =>
    obtain rfl := Except.ok.inj h
    exact ⟨text, blanks, hbefore, hblanks, rfl⟩
  | _ => cases h

theorem follows_beginMember {members : List (String × Unit)}
    (h : grammar.beginMember members stack token = .ok next) (hblanks : AllBlank blanks)
    (hopen : OpensWith .members '\x7b' stack text []) :
    next.Follows (text ++ (blanks ++ token.text)) := by
  cases token with
  | string body =>
    change (grammar.name members body).map _ = _ at h
    cases hpieces : pieces? body with
    | none => simp [grammar, hpieces, Except.map] at h
    | some pieces =>
      have hbody : IsBody body := pieces?_isSome_iff.1 (by rw [hpieces]; rfl)
      rw [grammar_name hbody] at h
      obtain rfl := Except.ok.inj h
      obtain ⟨outer, front, inner, houter, hfront, hinner, rfl⟩ := hopen
      exact ⟨blanks, body, hblanks, hbody, outer, front, inner, houter, hfront, hinner,
        by simp [Token.text]⟩
  | _ => cases h

theorem follows_afterValue (h : grammar.afterValue () stack token = .ok next)
    (hblanks : AllBlank blanks) (hdone : (Reading.done () stack).Follows text) :
    next.Follows (text ++ (blanks ++ token.text)) := by
  obtain ⟨outer, before, value, houter, hbefore, hvalue, rfl⟩ := hdone
  have helement : IsPhrase .element (before ++ (value ++ blanks)) :=
    .element hbefore hvalue hblanks
  cases houter with
  | nil => cases h
  | @array stack _ _ _ items houter hfront hinner =>
    have helements := isPhrase_elements_append hinner helement
    cases token with
    | comma =>
      obtain rfl := Except.ok.inj h
      have hnext : LeadsInto (.array (() :: items) :: stack) _ :=
        .array houter hfront (.inr ⟨_, helements, rfl⟩)
      simpa [Token.text, Reading.Follows] using hnext
    | endArray =>
      obtain rfl := Except.ok.inj h
      exact ⟨_, _, _, houter, hfront, .array helements, by simp [Token.text]⟩
    | _ => cases h
  | object houter hfront hinner hspace hbody hbetween =>
    have hmembers := isPhrase_members_append hinner (.member hspace hbody hbetween helement)
    cases token with
    | comma =>
      obtain rfl := Except.ok.inj h
      exact ⟨_, _, _, houter, hfront, .inr ⟨_, hmembers, rfl⟩, by simp [Token.text]⟩
    | endObject =>
      obtain rfl := Except.ok.inj h
      exact ⟨_, _, _, houter, hfront, .object hmembers, by simp [Token.text]⟩
    | _ => cases h

/-- A step of the machine adds its token to what the grammar accounts for. -/
theorem follows_step {r : Reading Unit} (h : grammar.step r token = .ok next)
    (hblanks : AllBlank blanks) (hr : r.Follows text) :
    next.Follows (text ++ (blanks ++ token.text)) := by
  cases r with
  | value stack => exact follows_beginValue h hblanks hr
  | firstItem stack =>
    obtain ⟨outer, front, houter, hfront, rfl⟩ := hr
    by_cases hend : token = .endArray
    · subst hend
      obtain rfl := Except.ok.inj h
      exact ⟨outer, front, _, houter, hfront, .emptyArray hblanks, by simp [Token.text]⟩
    · rw [Build.step_firstItem _ hend] at h
      exact follows_beginValue h hblanks (.array houter hfront (.inl rfl))
  | firstName stack =>
    obtain ⟨outer, front, houter, hfront, rfl⟩ := hr
    by_cases hend : token = .endObject
    · subst hend
      obtain rfl := Except.ok.inj h
      exact ⟨outer, front, _, houter, hfront, .emptyObject hblanks, by simp [Token.text]⟩
    · rw [Build.step_firstName _ hend] at h
      exact follows_beginMember h hblanks ⟨outer, front, [], houter, hfront, .inl rfl, rfl⟩
  | nextName members stack => exact follows_beginMember h hblanks hr
  | colon members name stack =>
    obtain ⟨before, body, hbefore, hbody, outer, front, inner, houter, hfront, hinner, rfl⟩ := hr
    cases token with
    | colon =>
      obtain rfl := Except.ok.inj h
      have hnext : LeadsInto (.object members name :: stack) _ :=
        .object houter hfront hinner hbefore hbody hblanks
      simpa [Token.text, Reading.Follows] using hnext
    | _ => cases h
  | done value stack => exact follows_afterValue h hblanks hr

end Steps

/-- What the machine has read is what the grammar accounts for. -/
theorem follows_run {r last : Reading Unit} {ls : List Lexeme} {text : List Char}
    (h : grammar.run r (ls.map (·.token)) = .ok last) (hblanks : ∀ l ∈ ls, AllBlank l.blanks)
    (hr : r.Follows text) : last.Follows (text ++ ls.flatMap Lexeme.text) := by
  induction ls generalizing r text with
  | nil =>
    obtain rfl := Except.ok.inj h
    simpa using hr
  | cons l ls ih =>
    rw [List.map_cons, Build.run] at h
    cases hstep : grammar.step r l.token with
    | error fault => simp [hstep] at h
    | ok next =>
      rw [hstep] at h
      have hnext := follows_step hstep (hblanks l List.mem_cons_self) hr
      have hlast := ih h (fun l' hl' => hblanks l' (List.mem_cons_of_mem _ hl')) hnext
      rwa [List.flatMap_cons, ← List.append_assoc]

theorem isPhrase_of_isValueText {text : List Char} (h : isValueText text) :
    IsPhrase .element text := by
  have hstart : (Reading.value []).Follows [] := LeadsInto.nil
  obtain ⟨outer, blanks, value, houter, hblanks, hvalue, hread⟩ :=
    follows_run (run_of_isValueText h) allBlank_blanks_of_lex hstart
  obtain rfl : outer = [] := by cases houter; rfl
  obtain ⟨trailing, htrailing, htext⟩ := flatMap_text_lex text
  rw [List.nil_append, List.nil_append] at hread
  rw [htext, hread, List.append_assoc]
  exact .element hblanks hvalue htrailing

theorem element_parts {text : List Char} (h : IsPhrase .element text) :
    ∃ before value after, AllBlank before ∧ IsPhrase .value value ∧ AllBlank after ∧
      text = before ++ (value ++ after) := by
  cases h with
  | element hbefore hvalue hafter => exact ⟨_, _, _, hbefore, hvalue, hafter, rfl⟩

/-- A text is accepted as one value if and only if the grammar derives it. -/
theorem isValueText_iff {text : List Char} : isValueText text ↔ IsPhrase .element text :=
  ⟨isPhrase_of_isValueText, isValueText_of_isPhrase⟩

/-! ### Raw texts -/

/-- Trimming takes blanks away and nothing else. -/
theorem exists_blanks_trim (text : List Char) :
    ∃ before after, AllBlank before ∧ AllBlank after ∧ text = before ++ (trim text ++ after) := by
  refine ⟨text.takeWhile isBlank, ((text.dropWhile isBlank).reverse.takeWhile isBlank).reverse,
    fun c hc => List.mem_takeWhile_imp hc,
    fun c hc => List.mem_takeWhile_imp (List.mem_reverse.1 hc), ?_⟩
  rw [trim, ← List.reverse_append, List.takeWhile_append_dropWhile, List.reverse_reverse,
    List.takeWhile_append_dropWhile]

theorem dropWhile_blanks_append {blanks text : List Char} (hblanks : AllBlank blanks)
    (hhead : ∀ c ∈ text.head?, isBlank c = false) :
    (blanks ++ text).dropWhile isBlank = text := by
  rw [List.dropWhile_append_of_pos hblanks]
  cases text with
  | nil => rfl
  | cons c text => simp [hhead c rfl]

theorem trim_blanks_append {before text after : List Char} (hbefore : AllBlank before)
    (hafter : AllBlank after) (hne : text ≠ []) (hhead : ∀ c ∈ text.head?, isBlank c = false)
    (hlast : ∀ c ∈ text.getLast?, isBlank c = false) : trim (before ++ (text ++ after)) = text := by
  have hreverse : AllBlank after.reverse := fun c hc => hafter c (List.mem_reverse.1 hc)
  rw [trim, dropWhile_blanks_append hbefore (by rwa [List.head?_append_of_ne_nil _ hne]),
    List.reverse_append, dropWhile_blanks_append hreverse (by rwa [List.head?_reverse]),
    List.reverse_reverse]

/-- A value begins and ends with a character that is no blank. -/
theorem IsPhrase.no_blanks {text : List Char} (h : IsPhrase .value text) :
    text ≠ [] ∧ (∀ c ∈ text.head?, isBlank c = false) ∧
      ∀ c ∈ text.getLast?, isBlank c = false := by
  have hclosed : ∀ {first last : Char} {inner : List Char}, isBlank first = false →
      isBlank last = false → first :: (inner ++ [last]) ≠ [] ∧
        (∀ c ∈ (first :: (inner ++ [last])).head?, isBlank c = false) ∧
        ∀ c ∈ (first :: (inner ++ [last])).getLast?, isBlank c = false := by
    intro first last inner hfirst hlast
    refine ⟨by simp, by simpa using hfirst, ?_⟩
    rw [← List.cons_append, List.getLast?_append]
    simpa using hlast
  cases h with
  | word hword =>
    obtain ⟨hne, hall⟩ := hword.isWordChar
    exact ⟨hne, fun c hc => (hall c (List.mem_of_mem_head? hc)).1,
      fun c hc => (hall c (List.mem_of_getLast? hc)).1⟩
  | string | emptyArray | array | emptyObject | object => exact hclosed (by decide) (by decide)

theorem trim_of_isPhrase {before text after : List Char} (hbefore : AllBlank before)
    (h : IsPhrase .value text) (hafter : AllBlank after) :
    trim (before ++ (text ++ after)) = text := by
  obtain ⟨hne, hhead, hlast⟩ := h.no_blanks
  exact trim_blanks_append hbefore hafter hne hhead hlast

/-- The raw texts are the values of the grammar. -/
theorem exists_rawText_iff {text : List Char} :
    (∃ raw : RawText, raw.chars = text) ↔ IsPhrase .value text := by
  constructor
  · rintro ⟨raw, rfl⟩
    obtain ⟨before, value, after, hbefore, hvalue, hafter, heq⟩ :=
      element_parts (isValueText_iff.1 raw.isValue)
    have htrim := trim_of_isPhrase hbefore hvalue hafter
    rw [← heq, raw.isTrim] at htrim
    rwa [htrim]
  · intro h
    have htrim := trim_of_isPhrase allBlank_nil h allBlank_nil
    have hvalue := isValueText_iff.2 (.element allBlank_nil h allBlank_nil)
    rw [List.nil_append, List.append_nil] at htrim hvalue
    exact ⟨⟨text, hvalue, htrim⟩, rfl⟩

/-- What is a raw text once the blanks around it are gone. -/
theorem ofChars?_eq_some_iff {text : List Char} {raw : RawText} :
    RawText.ofChars? text = some raw ↔
      ∃ before after, AllBlank before ∧ AllBlank after ∧ text = before ++ (raw.chars ++ after) := by
  have hvalue := exists_rawText_iff.1 ⟨raw, rfl⟩
  constructor
  · intro h
    obtain ⟨before, after, hbefore, hafter, htext⟩ := exists_blanks_trim text
    have htrim : trim text = raw.chars := by
      unfold RawText.ofChars? at h
      split at h
      · exact congrArg RawText.chars (Option.some.inj h)
      · cases h
    rw [htrim] at htext
    exact ⟨before, after, hbefore, hafter, htext⟩
  · rintro ⟨before, after, hbefore, hafter, rfl⟩
    have htrim := trim_of_isPhrase hbefore hvalue hafter
    rw [RawText.ofChars?, dif_pos (by rw [htrim]; exact raw.isValue)]
    congr

end TypedStore.Json
