/-
  TypedStore/Json/Token.lean
  ==========================
  **JSON text as tokens.**

  Text is cut into brackets, commas, colons, strings and words, a word being a longest run of
  characters that are none of the others. A token keeps the characters it was written with, and
  the blanks before it: so the text of a range of tokens is the text that they were cut from
  (`flatMap_text_lex`). Whether a word is a number, or the escapes of a string make sense, is
  not decided here; that a string is never closed is itself a token.
-/

namespace TypedStore.Json

def isBlank (c : Char) : Bool := c = ' ' || c = '\t' || c = '\n' || c = '\x0d'

inductive Token where
  | beginArray
  | endArray
  | beginObject
  | endObject
  | comma
  | colon
  /-- A literal name or a number, or what stands in its place. -/
  | word (text : List Char)
  /-- What stands between two quotes, escapes as they are written. -/
  | string (body : List Char)
  /-- What stands after a quote that no other one closes. -/
  | unclosed (body : List Char)
deriving DecidableEq, Repr

def Token.text : Token → List Char
  | .beginArray => ['[']
  | .endArray => [']']
  | .beginObject => ['\x7b']
  | .endObject => ['\x7d']
  | .comma => [',']
  | .colon => [':']
  | .word text => text
  | .string body => '"' :: body ++ ['"']
  | .unclosed body => '"' :: body

@[simp] theorem Token.text_word (text : List Char) : (Token.word text).text = text := rfl

/-- The token that a single character makes by itself. -/
def Token.ofMark? (c : Char) : Option Token :=
  if c = '[' then some .beginArray
  else if c = ']' then some .endArray
  else if c = '\x7b' then some .beginObject
  else if c = '\x7d' then some .endObject
  else if c = ',' then some .comma
  else if c = ':' then some .colon
  else none

structure Lexeme where
  blanks : List Char
  token : Token
deriving DecidableEq, Repr

def Lexeme.text (l : Lexeme) : List Char := l.blanks ++ l.token.text

/-- Where the cutting stands; what has been read of a part is held in reverse. -/
inductive Cut where
  /-- Between tokens. -/
  | between (blanks : List Char)
  /-- Inside a word. -/
  | word (blanks text : List Char)
  /-- Inside a string, `escaped` right after a backslash. -/
  | string (blanks body : List Char) (escaped : Bool)

def lexFrom : Cut → List Char → List Lexeme
  | .between _, [] => []
  | .word blanks text, [] => [⟨blanks.reverse, .word text.reverse⟩]
  | .string blanks body _, [] => [⟨blanks.reverse, .unclosed body.reverse⟩]
  | .between blanks, c :: rest =>
    if isBlank c then lexFrom (.between (c :: blanks)) rest
    else if c = '"' then lexFrom (.string blanks [] false) rest
    else
      match Token.ofMark? c with
      | some mark => ⟨blanks.reverse, mark⟩ :: lexFrom (.between []) rest
      | none => lexFrom (.word blanks [c]) rest
  | .word blanks text, c :: rest =>
    if isBlank c then ⟨blanks.reverse, .word text.reverse⟩ :: lexFrom (.between [c]) rest
    else if c = '"' then
      ⟨blanks.reverse, .word text.reverse⟩ :: lexFrom (.string [] [] false) rest
    else
      match Token.ofMark? c with
      | some mark =>
        ⟨blanks.reverse, .word text.reverse⟩ :: ⟨[], mark⟩ :: lexFrom (.between []) rest
      | none => lexFrom (.word blanks (c :: text)) rest
  | .string blanks body true, c :: rest => lexFrom (.string blanks (c :: body) false) rest
  | .string blanks body false, c :: rest =>
    if c = '\\' then lexFrom (.string blanks (c :: body) true) rest
    else if c = '"' then ⟨blanks.reverse, .string body.reverse⟩ :: lexFrom (.between []) rest
    else lexFrom (.string blanks (c :: body) false) rest

/-- The tokens of a text, each with the blanks before it. -/
def lex (text : List Char) : List Lexeme := lexFrom (.between []) text

def tokens (text : List Char) : List Token := (lex text).map (·.token)

/-! ### Nothing is lost -/

/-- The characters that have been read of an unfinished part. -/
def Cut.pending : Cut → List Char
  | .between blanks => blanks.reverse
  | .word blanks text => blanks.reverse ++ text.reverse
  | .string blanks body _ => blanks.reverse ++ '"' :: body.reverse

theorem Token.text_of_ofMark? {c : Char} {t : Token} (h : Token.ofMark? c = some t) :
    t.text = [c] := by
  unfold Token.ofMark? at h
  repeat' split at h
  all_goals first
    | (obtain rfl := Option.some.inj h; simp [Token.text, *])
    | contradiction

/-- The blanks read so far, if the cutting stands between tokens. -/
def Cut.OnlyBlanks : Cut → Prop
  | .between blanks => ∀ c ∈ blanks, isBlank c
  | _ => True

theorem flatMap_text_lexFrom (cut : Cut) (text : List Char) (h : cut.OnlyBlanks) :
    ∃ trailing : List Char, (∀ c ∈ trailing, isBlank c) ∧
      cut.pending ++ text = (lexFrom cut text).flatMap Lexeme.text ++ trailing := by
  fun_induction lexFrom cut text with
  | case1 blanks => exact ⟨blanks.reverse, by simpa [Cut.OnlyBlanks] using h, by simp [Cut.pending]⟩
  | case2 | case3 => exact ⟨[], by simp, by simp [Cut.pending, Lexeme.text, Token.text]⟩
  | case4 blanks c rest hc ih =>
    obtain ⟨t, ht, e⟩ := ih (by simpa [Cut.OnlyBlanks, hc] using h)
    exact ⟨t, ht, by simpa [Cut.pending] using e⟩
  | case5 blanks rest _ ih =>
    obtain ⟨t, ht, e⟩ := ih trivial
    exact ⟨t, ht, by simpa [Cut.pending] using e⟩
  | case6 blanks c rest _ _ mark hm ih =>
    obtain ⟨t, ht, e⟩ := ih (by simp [Cut.OnlyBlanks])
    simp only [Cut.pending, List.reverse_nil, List.nil_append] at e
    exact ⟨t, ht, by simp [Cut.pending, Lexeme.text, Token.text_of_ofMark? hm, ← e]⟩
  | case7 blanks c rest _ _ _ ih =>
    obtain ⟨t, ht, e⟩ := ih trivial
    exact ⟨t, ht, by simpa [Cut.pending] using e⟩
  | case8 blanks word c rest hc ih =>
    obtain ⟨t, ht, e⟩ := ih (by simpa [Cut.OnlyBlanks] using hc)
    simp only [Cut.pending, List.reverse_singleton, List.singleton_append] at e
    exact ⟨t, ht, by simp [Cut.pending, Lexeme.text, Token.text, ← e]⟩
  | case9 blanks word rest _ ih =>
    obtain ⟨t, ht, e⟩ := ih trivial
    simp only [Cut.pending, List.reverse_nil, List.nil_append] at e
    exact ⟨t, ht, by simp [Cut.pending, Lexeme.text, Token.text, ← e]⟩
  | case10 blanks word c rest _ _ mark hm ih =>
    obtain ⟨t, ht, e⟩ := ih (by simp [Cut.OnlyBlanks])
    simp only [Cut.pending, List.reverse_nil, List.nil_append] at e
    exact ⟨t, ht, by
      simp [Cut.pending, Lexeme.text, Token.text_word, Token.text_of_ofMark? hm, ← e]⟩
  | case11 blanks word c rest _ _ _ ih =>
    obtain ⟨t, ht, e⟩ := ih trivial
    exact ⟨t, ht, by simpa [Cut.pending] using e⟩
  | case12 blanks body c rest ih =>
    obtain ⟨t, ht, e⟩ := ih trivial
    exact ⟨t, ht, by simpa [Cut.pending] using e⟩
  | case13 blanks body rest ih =>
    obtain ⟨t, ht, e⟩ := ih trivial
    exact ⟨t, ht, by simpa [Cut.pending] using e⟩
  | case14 blanks body rest _ ih =>
    obtain ⟨t, ht, e⟩ := ih (by simp [Cut.OnlyBlanks])
    simp only [Cut.pending, List.reverse_nil, List.nil_append] at e
    exact ⟨t, ht, by simp [Cut.pending, Lexeme.text, Token.text, ← e]⟩
  | case15 blanks body c rest _ _ ih =>
    obtain ⟨t, ht, e⟩ := ih trivial
    exact ⟨t, ht, by simpa [Cut.pending] using e⟩

/-- The tokens' texts and the blanks at the end make up the input. -/
theorem flatMap_text_lex (text : List Char) :
    ∃ trailing : List Char, (∀ c ∈ trailing, isBlank c) ∧
      text = (lex text).flatMap Lexeme.text ++ trailing := by
  simpa [Cut.pending, lex] using flatMap_text_lexFrom (.between []) text (by simp [Cut.OnlyBlanks])

end TypedStore.Json
