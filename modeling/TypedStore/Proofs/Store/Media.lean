/-
  TypedStore/Proofs/Store/Media.lean
  ==================================
  **Media that are maps.**

  What a store relies on is that its medium keeps a map from keys to bytes (`Medium.IsMap`), as far
  as keys are text and the bytes are those of an encoded value. The medium in memory does, and so
  does any medium whose four required operations do and that gets the other two from them
  (`ofRequired_isMap`). An archive does except that its file operations may fail (`Archive.isMap`).
-/
import Mathlib.Logic.Function.Basic
import TypedStore.Medium.Failing
import TypedStore.Medium.Memory
import TypedStore.Proofs.Archive.Calls
import TypedStore.Proofs.Codec.RoundTrip

namespace TypedStore

/-- What is under each key. -/
abbrev Lookup := Bytes → Option Bytes

/-- Just the keys with something under them, in any order. -/
structure Lookup.Lists (look : Lookup) (listed : List Bytes) : Prop where
  nodup : listed.Nodup
  mem_iff : ∀ key, key ∈ listed ↔ look key ≠ none

theorem Lookup.Lists.perm {look : Lookup} {a b : List Bytes} (ha : look.Lists a)
    (hb : look.Lists b) : a.Perm b :=
  (List.perm_ext_iff_of_nodup ha.nodup hb.nodup).2 fun key =>
    (ha.mem_iff key).trans (hb.mem_iff key).symm

/-! ### Keys that are text -/

namespace Lookup

variable {α : Type} (f : α → Bytes)

/-- The look-up in a map from texts, of which the values are written by `f`. -/
def ofMap (m : SortedMap String α) : Lookup := fun key =>
  match Utf8.decode key with
  | .ok name => (m.get? name).map f
  | .error _ => none

@[simp]
theorem ofMap_encode (m : SortedMap String α) (name : String) :
    ofMap f m (Utf8.encode name) = (m.get? name).map f := by
  rw [ofMap, Utf8.decode_encode]

theorem ofMap_empty : ofMap f .empty = fun _ => none := by
  funext key
  unfold ofMap
  split <;> rfl

/-- What another value under a text makes of the look-up. -/
theorem ofMap_eq_update {m next : SortedMap String α} {name : String} {value : Option α}
    (h : next.get? = Function.update m.get? name value) :
    ofMap f next = Function.update (ofMap f m) (Utf8.encode name) (value.map f) := by
  funext key
  unfold ofMap
  by_cases hkey : key = Utf8.encode name
  · subst hkey
    rw [Function.update_self, Utf8.decode_encode]
    simp only [h, Function.update_self]
  · rw [Function.update_of_ne hkey]
    cases hdecode : Utf8.decode key with
    | error fault => rfl
    | ok other =>
      have hother : other ≠ name := by
        rintro rfl
        exact hkey (Utf8.encode_of_decode hdecode).symm
      simp only [h, Function.update_of_ne hother]

theorem ofMap_insert (m : SortedMap String α) (name : String) (value : α) :
    ofMap f (m.insert name value) =
      Function.update (ofMap f m) (Utf8.encode name) (some (f value)) :=
  ofMap_eq_update f (SortedMap.get?_insert_eq m name value)

theorem ofMap_erase (m : SortedMap String α) (name : String) :
    ofMap f (m.erase name) = Function.update (ofMap f m) (Utf8.encode name) none :=
  ofMap_eq_update f (SortedMap.get?_erase_eq m name)

theorem lists_ofMap (m : SortedMap String α) :
    (ofMap f m).Lists (m.keys.map Utf8.encode) := by
  refine ⟨m.nodup_keys.map fun _ _ => Utf8.encode_injective, ?_⟩
  intro key
  constructor
  · intro hkey
    obtain ⟨name, hname, rfl⟩ := List.mem_map.1 hkey
    obtain ⟨value, hvalue⟩ := Option.isSome_iff_exists.1 (SortedMap.mem_keys_iff.1 hname)
    rw [ofMap_encode, hvalue]
    simp
  · intro hkey
    unfold ofMap at hkey
    cases hdecode : Utf8.decode key with
    | error fault => simp [hdecode] at hkey
    | ok name =>
      rw [hdecode] at hkey
      refine List.mem_map.2 ⟨name, SortedMap.mem_keys_iff.2 ?_, Utf8.encode_of_decode hdecode⟩
      cases hvalue : m.get? name with
      | none => simp [hvalue] at hkey
      | some value => rfl

end Lookup

namespace Medium

variable {σ : Type}

/-- The medium keeps a map, of which `rep` says how it is represented, except that some operations
    may fail in certain ways. -/
structure IsMap (medium : Medium σ) (rep : σ → Lookup → Prop) (mayFail : StorageFault → Prop) :
    Prop where
  persist {s : Journaled σ} {look : Lookup} (name : String) {value : Value} (hrep : rep s.state look)
    (hdistinct : value.Distinct) (hdomain : value.checkDomain = .ok ()) :
    (medium.persist (Utf8.encode name) (Utf8.encode value.encoding)).Answers mayFail s (.ok ())
      (rep · (Function.update look (Utf8.encode name) (some (Utf8.encode value.encoding))))
  retrieve {s : Journaled σ} {look : Lookup} (name : String) (hrep : rep s.state look) :
    (medium.retrieve (Utf8.encode name)).Answers mayFail s (.ok (look (Utf8.encode name)))
      (rep · look)
  remove {s : Journaled σ} {look : Lookup} (name : String) (hrep : rep s.state look) :
    (medium.remove (Utf8.encode name)).Answers mayFail s (.ok (look (Utf8.encode name)).isSome)
      (rep · (Function.update look (Utf8.encode name) none))
  keys {s : Journaled σ} {look : Lookup} (hrep : rep s.state look) :
    ∃ listed, look.Lists listed ∧ medium.keys.Answers mayFail s (.ok listed) (rep · look)
  contains {s : Journaled σ} {look : Lookup} (name : String) (hrep : rep s.state look) :
    (medium.contains (Utf8.encode name)).Answers mayFail s (.ok (look (Utf8.encode name)).isSome)
      (rep · look)
  clear {s : Journaled σ} {look : Lookup} (hrep : rep s.state look) :
    ∃ listed, look.Lists listed ∧
      medium.clear.Answers mayFail s (.ok listed.length) (rep · fun _ => none)

/-! ### The medium in memory -/

theorem lists_keys (m : Memory) : Lookup.Lists m.get? m.keys := by
  refine ⟨m.nodup_keys, ?_⟩
  intro key
  rw [SortedMap.mem_keys_iff, Option.isSome_iff_ne_none]

theorem memory_isMap (mayFail : StorageFault → Prop) :
    Memory.medium.IsMap (fun m look => m.get? = look) mayFail where
  persist name value hrep _ _ := by
    subst hrep
    exact Op.answers_of_ok rfl (SortedMap.get?_insert_eq _ _ _)
  retrieve name hrep := by
    subst hrep
    exact Op.answers_of_ok rfl rfl
  remove name hrep := by
    subst hrep
    exact Op.answers_of_ok rfl (SortedMap.get?_erase_eq _ _)
  keys {s _} hrep := by
    subst hrep
    exact ⟨s.state.keys, lists_keys _, Op.answers_of_ok rfl rfl⟩
  contains name hrep := by
    subst hrep
    exact Op.answers_of_ok rfl rfl
  clear {s _} hrep := by
    subst hrep
    refine ⟨s.state.keys, lists_keys _, ?_⟩
    rw [SortedMap.length_keys]
    exact Op.answers_of_ok rfl (funext SortedMap.get?_empty)

/-! ### Media with the required operations only -/

/-- The four required operations keep a map, of which `rep` says how it is represented. The keys may
    be listed in any order. -/
structure IsRequiredMap (persist : Bytes → Bytes → Op StorageFault σ Unit)
    (retrieve : Bytes → Op StorageFault σ (Option Bytes))
    (remove : Bytes → Op StorageFault σ Bool) (keys : Op StorageFault σ (List Bytes))
    (rep : σ → Lookup → Prop) : Prop where
  persist {s : Journaled σ} {look : Lookup} (key value : Bytes) (hrep : rep s.state look) :
    ∃ t, persist key value s = .ok () t ∧ rep t.state (Function.update look key (some value))
  retrieve {s : Journaled σ} {look : Lookup} (key : Bytes) (hrep : rep s.state look) :
    ∃ t, retrieve key s = .ok (look key) t ∧ rep t.state look
  remove {s : Journaled σ} {look : Lookup} (key : Bytes) (hrep : rep s.state look) :
    ∃ t, remove key s = .ok (look key).isSome t ∧ rep t.state (Function.update look key none)
  keys {s : Journaled σ} {look : Lookup} (hrep : rep s.state look) :
    ∃ listed t, keys s = .ok listed t ∧ look.Lists listed ∧ rep t.state look

section Required

variable {persist : Bytes → Bytes → Op StorageFault σ Unit}
  {retrieve : Bytes → Op StorageFault σ (Option Bytes)}
  {remove : Bytes → Op StorageFault σ Bool} {keys : Op StorageFault σ (List Bytes)}
  {rep : σ → Lookup → Prop} {s : Journaled σ} {look : Lookup}

/-- Removing the listed keys one by one finds each of them, and leaves nothing. -/
theorem removeEach_eq (h : IsRequiredMap persist retrieve remove keys rep) {listed : List Bytes}
    (hrep : rep s.state look) (hlists : look.Lists listed) (removed : Nat) :
    ∃ t, removeEach remove removed listed s = .ok (removed + listed.length) t ∧
      rep t.state fun _ => none := by
  induction listed generalizing s look removed with
  | nil =>
    have hnone : look = fun _ => none := by
      funext key
      apply Classical.byContradiction
      intro hsome
      cases (hlists.mem_iff key).2 hsome
    subst hnone
    exact ⟨s, rfl, hrep⟩
  | cons key rest ih =>
    obtain ⟨hkey, hrest⟩ := List.nodup_cons.1 hlists.nodup
    have hpresent : (look key).isSome :=
      Option.isSome_iff_ne_none.2 ((hlists.mem_iff key).1 List.mem_cons_self)
    have hlists' : Lookup.Lists (Function.update look key none) rest := by
      refine ⟨hrest, ?_⟩
      intro other
      by_cases heq : other = key
      · subst heq
        simp [hkey]
      · rw [Function.update_of_ne heq, ← hlists.mem_iff]
        simp [heq]
    obtain ⟨r, hremove, hrep'⟩ := h.remove key hrep
    obtain ⟨t, hremoved, hnone⟩ := ih hrep' hlists' (removed + 1)
    refine ⟨t, ?_, hnone⟩
    rw [removeEach, Op.bind_of_ok hremove, if_pos hpresent, hremoved, List.length_cons]
    congr 1
    omega

theorem ofRequired_isMap (h : IsRequiredMap persist retrieve remove keys rep)
    (mayFail : StorageFault → Prop) :
    (ofRequired persist retrieve remove keys).IsMap rep mayFail where
  persist name value hrep _ _ := by
    obtain ⟨t, hpersist, hrep'⟩ := h.persist _ _ hrep
    exact Op.answers_of_ok hpersist hrep'
  retrieve name hrep := by
    obtain ⟨t, hretrieve, hrep'⟩ := h.retrieve _ hrep
    exact Op.answers_of_ok hretrieve hrep'
  remove name hrep := by
    obtain ⟨t, hremove, hrep'⟩ := h.remove _ hrep
    exact Op.answers_of_ok hremove hrep'
  keys hrep := by
    obtain ⟨listed, t, hkeys, hlists, hrep'⟩ := h.keys hrep
    exact ⟨listed, hlists, Op.answers_of_ok hkeys hrep'⟩
  contains name hrep := by
    obtain ⟨t, hretrieve, hrep'⟩ := h.retrieve (Utf8.encode name) hrep
    refine Op.answers_of_ok (t := t) ?_ hrep'
    exact Op.bind_of_ok hretrieve
  clear hrep := by
    obtain ⟨listed, r, hkeys, hlists, hrep'⟩ := h.keys hrep
    obtain ⟨t, hremoved, hnone⟩ := removeEach_eq h hrep' hlists 0
    rw [Nat.zero_add] at hremoved
    refine ⟨listed, hlists, Op.answers_of_ok (t := t) ?_ hnone⟩
    exact (Op.bind_of_ok hkeys).trans hremoved

end Required

/-- A medium of which nothing fails keeps a map, though it lists the keys the other way round. -/
theorem failing_isRequiredMap :
    IsRequiredMap Failing.medium.persist Failing.medium.retrieve Failing.medium.remove
      Failing.medium.keys fun s look => s.failing = [] ∧ s.entries.get? = look := by
  have hdemand : ∀ {s : Journaled Failing} {name : String}, s.state.failing = [] →
      Failing.demand name s = .ok () s := by
    intro s name hnone
    refine Op.look_of_ok ?_
    rw [hnone]
    rfl
  refine ⟨?_, ?_, ?_, ?_⟩
  · rintro s look key value ⟨hnone, rfl⟩
    refine ⟨_, Op.bind_of_ok (hdemand hnone), hnone, ?_⟩
    exact SortedMap.get?_insert_eq _ _ _
  · rintro s look key ⟨hnone, rfl⟩
    exact ⟨_, Op.bind_of_ok (hdemand hnone), hnone, rfl⟩
  · rintro s look key ⟨hnone, rfl⟩
    refine ⟨_, Op.bind_of_ok (hdemand hnone), hnone, ?_⟩
    exact SortedMap.get?_erase_eq _ _
  · rintro s look ⟨hnone, rfl⟩
    refine ⟨_, _, Op.bind_of_ok (hdemand hnone), ⟨?_, ?_⟩, hnone, rfl⟩
    · exact List.nodup_reverse.2 s.state.entries.nodup_keys
    · intro key
      rw [List.mem_reverse, SortedMap.mem_keys_iff, Option.isSome_iff_ne_none]

end Medium

/-! ### Archives -/

theorem Json.RawText.ofChars?_of_trim {text : String} (htrim : trim text.toList = text.toList)
    (hvalue : isValueText text.toList) :
    ∃ raw, ofChars? text.toList = some raw ∧ raw.bytes = Utf8.encode text := by
  have htrimmed : isValueText (trim text.toList) := by
    rw [htrim]
    exact hvalue
  exact ⟨_, dif_pos htrimmed, congrArg Utf8.encodeChars htrim⟩

/-- No blanks surround the text of an encoded value. -/
theorem Value.trim_encoding (v : Value) : Json.trim v.encoding.toList = v.encoding.toList := by
  have hchars : v.encoding.toList = Json.write v.encode := String.toList_ofList
  rw [hchars]
  simp [encode, Json.node, Json.write, Json.trim, Json.isBlank]

/-- The text of an encoded value is a raw text as it is. -/
theorem Value.ofChars?_encoding {v : Value} (hdistinct : v.Distinct) (hdomain : v.checkDomain = .ok ()) :
    ∃ raw, Json.RawText.ofChars? v.encoding.toList = some raw ∧
      raw.bytes = Utf8.encode v.encoding := by
  refine Json.RawText.ofChars?_of_trim v.trim_encoding ?_
  exact Json.isValueText_of_read (Json.readStrict_text (distinct_encode hdistinct)
    (nesting_encode_of_checkDomain hdomain))

namespace Archive

variable {s : Journaled Mounted} {entries : Json.RawObject}

theorem replace_answers (entries : Json.RawObject) :
    (replace entries).Answers FileSet.IsDiskFault s (.ok ()) fun t => t.archive.entries = entries := by
  refine (replace_failsOnly entries).answers fun _ t h => ⟨rfl, ?_⟩
  obtain ⟨r, -, rfl⟩ := replace_eq_ok_iff.1 h
  rfl

/-- An archive keeps a map as long as its file operations succeed. -/
theorem isMap : medium.IsMap (fun s look => Lookup.ofMap Json.RawText.bytes s.archive.entries = look)
    FileSet.IsDiskFault where
  persist name value hrep hdistinct hdomain := by
    subst hrep
    obtain ⟨raw, hraw, hbytes⟩ := Value.ofChars?_encoding hdistinct hdomain
    rw [Op.answers_congr (persist_of_fit (Utf8.decode_encode _) (Utf8.decode_encode _) hraw)]
    apply (replace_answers _).mono
    intro t hentries
    rw [hentries, Lookup.ofMap_insert, hbytes]
  retrieve name hrep := by
    subst hrep
    refine Op.Answers.bind (Op.answers_of_ok (keyText_of_ok (Utf8.decode_encode name)) rfl) ?_
    intro t ht
    rw [ht, Lookup.ofMap_encode]
    exact Op.answers_of_ok rfl rfl
  remove {s _} name hrep := by
    subst hrep
    have hdecode := Utf8.decode_encode name
    rw [Lookup.ofMap_encode, Option.isSome_map]
    cases hcontains : s.state.archive.entries.contains name with
    | true =>
      rw [Op.answers_congr (remove_of_present hdecode hcontains)]
      change (s.state.archive.entries.get? name).isSome = true at hcontains
      rw [hcontains]
      refine (replace_answers _).bind fun t hentries => Op.answers_of_ok rfl ?_
      rw [hentries, Lookup.ofMap_erase]
    | false =>
      have hnone : s.state.archive.entries.get? name = none := by
        simpa [SortedMap.contains] using hcontains
      rw [hnone]
      refine Op.answers_of_ok (remove_of_absent hdecode hcontains) ?_
      rw [Function.update_eq_self_iff.2]
      rw [Lookup.ofMap_encode, hnone]
      rfl
  keys {s _} hrep := by
    subst hrep
    exact ⟨_, Lookup.lists_ofMap _ s.state.archive.entries, Op.answers_of_ok rfl rfl⟩
  contains name hrep := by
    subst hrep
    refine Op.Answers.bind (Op.answers_of_ok (keyText_of_ok (Utf8.decode_encode name)) rfl) ?_
    intro t ht
    rw [ht, Lookup.ofMap_encode, Option.isSome_map]
    exact Op.answers_of_ok rfl rfl
  clear {s _} hrep := by
    subst hrep
    refine ⟨_, Lookup.lists_ofMap _ s.state.archive.entries, ?_⟩
    rw [List.length_map, SortedMap.length_keys]
    cases hempty : s.state.archive.entries.isEmpty with
    | true =>
      have hentries := SortedMap.eq_empty_of_isEmpty hempty
      have hsize : s.state.archive.entries.size = 0 := by
        rw [hentries]
        rfl
      rw [hsize]
      refine Op.answers_of_ok (clear_of_isEmpty hempty) ?_
      rw [hentries, Lookup.ofMap_empty]
    | false =>
      rw [Op.answers_congr (clear_of_not_isEmpty hempty)]
      refine (replace_answers _).bind fun t hentries => Op.answers_of_ok rfl ?_
      rw [hentries, Lookup.ofMap_empty]

end Archive

end TypedStore
