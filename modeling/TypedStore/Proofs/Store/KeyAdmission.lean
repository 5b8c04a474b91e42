/-
  TypedStore/Proofs/Store/KeyAdmission.lean
  =========================================
  **Which texts are keys, and what becomes of those that are not.**

  A text is a key if it consists of ASCII letters, digits, underscores and hyphens and is not too long in
  bytes. The two ways of not being one are told apart with the characters first: a character that does
  not belong is reported however long the text is. The characters before it take one byte each, so the
  place where its bytes begin is also the number of characters before it (`checkKey_invalid_iff`).

  A text that is no key is never asked for. Since the statement is about every medium, also one that
  fails, reports and changes with whatever it is asked, and about every state of the locks, "the session
  is as it was" says that neither has been used (`key_admission_exact`).
-/
import TypedStore.Proofs.Store.Checks

namespace TypedStore

/-! ### The characters of keys -/

/-- The characters that keys consist of: ASCII letters and digits, underscore and hyphen. -/
def InKeyAlphabet (c : Char) : Prop :=
  ('A' ≤ c ∧ c ≤ 'Z') ∨ ('a' ≤ c ∧ c ≤ 'z') ∨ ('0' ≤ c ∧ c ≤ '9') ∨ c = '_' ∨ c = '-'

instance (c : Char) : Decidable (InKeyAlphabet c) := inferInstanceAs (Decidable (_ ∨ _))

theorem isKeyChar_iff {c : Char} : isKeyChar c ↔ InKeyAlphabet c := by
  simp only [isKeyChar, InKeyAlphabet, Char.isAlphanum, Char.isAlpha, Char.isUpper, Char.isLower,
    Char.isDigit, Bool.or_eq_true, Bool.and_eq_true, decide_eq_true_eq, Char.le_def]
  tauto

theorem InKeyAlphabet.utf8Size {c : Char} (h : InKeyAlphabet c) : c.utf8Size = 1 := by
  rw [Char.utf8Size_eq_one_iff]
  rcases h with ⟨-, h⟩ | ⟨-, h⟩ | ⟨-, h⟩ | rfl | rfl
  · exact Std.le_trans h (by decide)
  · exact Std.le_trans h (by decide)
  · exact Std.le_trans h (by decide)
  · decide
  · decide

theorem length_encodeChars_of_alphabet {cs : List Char} (h : ∀ c ∈ cs, InKeyAlphabet c) :
    (Utf8.encodeChars cs).length = cs.length := by
  induction cs with
  | nil => rfl
  | cons c rest ih =>
    obtain ⟨hc, hrest⟩ := List.forall_mem_cons.1 h
    rw [Utf8.length_encodeChars_cons, hc.utf8Size, ih hrest, List.length_cons, Nat.add_comm]

/-! ### What comes of a text -/

section Check

variable {limits : Limits} {text : String}

theorem checkKey_eq_ok_iff : checkKey limits text = .ok () ↔
    (∀ c ∈ text.toList, InKeyAlphabet c) ∧ (Utf8.encode text).length ≤ limits.maxKeyBytes := by
  simp only [← isAdmissible_iff_checkKey, isAdmissible_iff, IsKeyText, isKeyChar_iff]

theorem checkKey_tooLong_iff {actual max : Nat} :
    checkKey limits text = .error (.tooLong actual max) ↔
      (∀ c ∈ text.toList, InKeyAlphabet c) ∧ limits.maxKeyBytes < (Utf8.encode text).length ∧
        actual = (Utf8.encode text).length ∧ max = limits.maxKeyBytes := by
  have htext : firstInvalid? 0 text.toList = none ↔ ∀ c ∈ text.toList, InKeyAlphabet c := by
    simp only [Key.firstInvalid?_eq_none_iff, isKeyChar_iff]
  rw [checkKey, ← htext]
  cases firstInvalid? 0 text.toList with
  | some found => simp
  | none =>
    by_cases hlong : limits.maxKeyBytes < (Utf8.encode text).length
    · simp [hlong, eq_comm]
    · simp [hlong]

/-- The place of the first wrong character is the same in bytes and in characters. -/
theorem checkKey_invalid_iff {c : Char} {place : Nat} :
    checkKey limits text = .error (.invalidCharacter c place) ↔
      ∃ before after, text.toList = before ++ c :: after ∧ (∀ b ∈ before, InKeyAlphabet b) ∧
        ¬ InKeyAlphabet c ∧ place = (Utf8.encodeChars before).length ∧ place = before.length := by
  have hfirst : checkKey limits text = .error (.invalidCharacter c place) ↔
      firstInvalid? 0 text.toList = some (c, place) := by
    rw [checkKey]
    cases firstInvalid? 0 text.toList with
    | some found => simp [Prod.ext_iff]
    | none => by_cases hlong : limits.maxKeyBytes < (Utf8.encode text).length <;> simp [hlong]
  rw [hfirst, firstInvalid?_eq_some_iff]
  simp only [isKeyChar_iff, Nat.zero_add]
  constructor
  · rintro ⟨before, after, heq, hbefore, hc, rfl⟩
    exact ⟨before, after, heq, hbefore, hc, rfl, length_encodeChars_of_alphabet hbefore⟩
  · rintro ⟨before, after, heq, hbefore, hc, hplace, -⟩
    exact ⟨before, after, heq, hbefore, hc, hplace⟩

theorem exists_ofText_iff : (∃ key, Key.ofText limits text = .ok key) ↔
    checkKey limits text = .ok () := by
  constructor
  · rintro ⟨key, hkey⟩
    cases hchecked : checkKey limits text with
    | ok _ => rfl
    | error reason => cases (Store.ofText_of_error hchecked).symm.trans hkey
  · intro hchecked
    exact ⟨_, Store.ofText_of_ok hchecked⟩

theorem ofText_eq_error_iff {fault : KeyFault} :
    Key.ofText limits text = .error fault ↔ checkKey limits text = .error fault := by
  refine ⟨fun hfault => ?_, Store.ofText_of_error⟩
  cases hchecked : checkKey limits text with
  | ok _ => cases (Store.ofText_of_ok hchecked).symm.trans hfault
  | error reason =>
    have hsame := (Store.ofText_of_error hchecked).symm.trans hfault
    exact congrArg Except.error (Except.error.inj hsame)

theorem bytes_of_ofText {key : Key limits} (h : Key.ofText limits text = .ok key) :
    key.bytes = Utf8.encode text := by
  have hchecked := exists_ofText_iff.1 ⟨key, h⟩
  cases (Store.ofText_of_ok hchecked).symm.trans h
  rfl

end Check

/-- What comes of a text as a key under limits, for each way that it can go. -/
structure KeyVerdict (limits : Limits) (text : String) : Prop where
  admitted_iff : (∃ key, Key.ofText limits text = .ok key) ↔
    (∀ c ∈ text.toList, InKeyAlphabet c) ∧ (Utf8.encode text).length ≤ limits.maxKeyBytes
  bytes_eq (key : Key limits) : Key.ofText limits text = .ok key → key.bytes = Utf8.encode text
  /-- Some character does not belong: it is reported, whatever the length. -/
  invalid_of_exists : (∃ c ∈ text.toList, ¬ InKeyAlphabet c) →
    ∃ c place, Key.ofText limits text = .error (.invalidCharacter c place)
  /-- The character that is reported is the first that does not belong; its place is counted in bytes, and
      is that in characters. -/
  invalid_iff (c : Char) (place : Nat) :
    Key.ofText limits text = .error (.invalidCharacter c place) ↔
      ∃ before after, text.toList = before ++ c :: after ∧ (∀ b ∈ before, InKeyAlphabet b) ∧
        ¬ InKeyAlphabet c ∧ place = (Utf8.encodeChars before).length ∧ place = before.length
  tooLong_iff (actual max : Nat) : Key.ofText limits text = .error (.tooLong actual max) ↔
    (∀ c ∈ text.toList, InKeyAlphabet c) ∧ limits.maxKeyBytes < (Utf8.encode text).length ∧
      actual = (Utf8.encode text).length ∧ max = limits.maxKeyBytes

theorem keyVerdict (limits : Limits) (text : String) : KeyVerdict limits text where
  admitted_iff := exists_ofText_iff.trans checkKey_eq_ok_iff
  bytes_eq _ := bytes_of_ofText
  invalid_of_exists := by
    rintro ⟨c, hc, hforeign⟩
    cases hchecked : checkKey limits text with
    | ok _ => exact absurd ((checkKey_eq_ok_iff.1 hchecked).1 c hc) hforeign
    | error fault =>
      cases fault with
      | invalidCharacter c place => exact ⟨c, place, ofText_eq_error_iff.2 hchecked⟩
      | tooLong actual max => exact absurd ((checkKey_tooLong_iff.1 hchecked).1 c hc) hforeign
  invalid_iff _ _ := ofText_eq_error_iff.trans checkKey_invalid_iff
  tooLong_iff _ _ := ofText_eq_error_iff.trans checkKey_tooLong_iff

/-! ### Texts that are no keys -/

namespace Store

variable {σ : Type} {store : Store σ} {name : String}

theorem get_of_not_admissible (h : ¬ isAdmissible store.limits name) (s : Journaled (Session σ)) :
    store.get name s = .error (.notFound name) ⟨s.state, s.events ++ [.notFound name]⟩ := by
  rw [get, fetch, if_neg h]
  rfl

theorem remove_of_not_admissible (h : ¬ isAdmissible store.limits name)
    (s : Journaled (Session σ)) : store.remove name s = .error (.notFound name) s := by
  rw [remove, if_neg h]
  rfl

theorem contains_of_not_admissible (h : ¬ isAdmissible store.limits name)
    (s : Journaled (Session σ)) : store.contains name s = .ok false s := by
  rw [contains, if_neg h]
  rfl

/-- A text is a key exactly if its characters belong and it is short enough, and the key has the bytes of
    the text; if it is not, the fault is that of the first character that does not belong or, where all
    do, that of the length. A text that is no key is not there for any store with these limits: it is not
    found, not removed and not contained, and whatever the medium and the locks would do or report if they
    were asked, the session is left as it was, and the journal has no more than that nothing was found. -/
theorem key_admission_exact (limits : Limits) (text : String) :
    KeyVerdict limits text ∧
      ((¬ ∃ key, Key.ofText limits text = .ok key) →
        ∀ {σ : Type} (store : Store σ), store.limits = limits → ∀ s : Journaled (Session σ),
          store.get text s = .error (.notFound text) ⟨s.state, s.events ++ [.notFound text]⟩ ∧
          store.remove text s = .error (.notFound text) s ∧
          store.contains text s = .ok false s) := by
  refine ⟨keyVerdict limits text, ?_⟩
  rintro hno σ store rfl s
  have hforeign : ¬ isAdmissible store.limits text := fun hadmissible =>
    hno (exists_ofText_iff.2 (isAdmissible_iff_checkKey.1 hadmissible))
  exact ⟨get_of_not_admissible hforeign s, remove_of_not_admissible hforeign s,
    contains_of_not_admissible hforeign s⟩

/-- A text that is too long and has a character that does not belong, on a medium that fails in all it
    does, while a handle for these very bytes is live. -/
theorem key_admission_exact_foreign :
    let limits : Limits := ⟨4, 64⟩
    let text := "ab-ключ"
    let store : Store Failing := { Store.ephemeral Failing.medium with limits := limits }
    let s : Journaled (Session Failing) := ⟨⟨⟨.empty, ["persist", "retrieve", "remove", "keys"]⟩,
      (KeyLocks.empty.acquire (Utf8.encode text)).2⟩, []⟩
    (¬ ∃ key, Key.ofText limits text = .ok key) ∧ store.limits = limits ∧
      Key.ofText limits text = .error (.invalidCharacter 'к' 3) ∧
      store.get text s = .error (.notFound text) ⟨s.state, [.notFound text]⟩ ∧
      store.remove text s = .error (.notFound text) s ∧ store.contains text s = .ok false s := by
  intro limits text store s
  obtain ⟨hverdict, hdenied⟩ := key_admission_exact limits text
  have hinvalid : Key.ofText limits text = .error (.invalidCharacter 'к' 3) := by
    have hbefore : ∀ b ∈ ['a', 'b', '-'], InKeyAlphabet b := by
      rw [List.forall_mem_cons, List.forall_mem_cons, List.forall_mem_singleton]
      decide
    refine (hverdict.invalid_iff 'к' 3).2 ⟨['a', 'b', '-'], "люч".toList, by decide +kernel, ?_⟩
    exact ⟨hbefore, by decide, by decide +kernel, rfl⟩
  have hno : ¬ ∃ key, Key.ofText limits text = .ok key := by
    rintro ⟨key, hkey⟩
    cases hinvalid.symm.trans hkey
  exact ⟨hno, rfl, hinvalid, hdenied hno store rfl s⟩

end Store

end TypedStore
