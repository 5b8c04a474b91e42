/-
  TypedStore/Proofs/Store/DefaultsFile.lean
  =========================================
  **Loading a defaults file is admitting each of its entries.**

  An opening goes through the entries of a defaults file twice: first it decodes them all, and then it
  asks of each value whether it could be stored. Each pass goes in the order of the bytes of the names
  and ends at the first entry that fails. So what comes of it is a matter of the entries alone
  (`Admission`): if any of them cannot be decoded it is the least of these, whatever is wrong with the
  others, and only then the least that could not be stored.

  Besides the defaults the file makes no difference (`openWith_without`). The theorem is
  `defaults_file_admitted`.
-/
import TypedStore.Proofs.Archive.Verdicts
import TypedStore.Proofs.Store.Neighbours
import TypedStore.Proofs.Store.Shadowing
import TypedStore.Proofs.Store.Storing

namespace TypedStore

open Json (RawObject RawText)

/-! ### The least of some names -/

/-- Where checks are made in the order of the bytes of names, the first that refuses is the least. -/
theorem FirstRefusal.exists_least {α ε : Type} {refuses : String × α → ε → Prop} {fault : ε}
    {entries : List (String × α)} (h : FirstRefusal refuses entries fault)
    (hascending : entries.Pairwise fun a b => Utf8.encode a.1 < Utf8.encode b.1) :
    ∃ entry ∈ entries, refuses entry fault ∧ ∀ other ∈ entries, ∀ reason, refuses other reason →
      Utf8.encode entry.1 ≤ Utf8.encode other.1 := by
  obtain ⟨before, entry, after, rfl, hbefore, hrefuses⟩ := h.exists_split
  refine ⟨entry, by simp, hrefuses, ?_⟩
  intro other hother reason hreason
  obtain ⟨-, hrest, -⟩ := List.pairwise_append.1 hascending
  rcases List.mem_append.1 hother with hearly | hlate
  · exact absurd hreason (hbefore other hearly reason)
  · rcases List.mem_cons.1 hlate with rfl | hlater
    · exact List.le_refl _
    · exact List.le_of_lt ((List.pairwise_cons.1 hrest).1 other hlater)

namespace Settings

/-- What has been checked can be used. -/
theorem check_eq_ok_iff {settings : Settings} : settings.check = .ok () ↔
    (∃ policy, settings.policy = .ok policy) ∧ settings.maxKeyBytes ≠ 0 ∧
      settings.maxValueBytes ≠ 0 ∧ settings.snapshotMaxCount ≠ 0 ∧
      (∃ mode, settings.defaultsMode = .ok mode) ∧ ∃ mode, settings.loadMode = .ok mode := by
  unfold check
  cases settings.policy <;> cases settings.defaultsMode <;> cases settings.loadMode <;>
    by_cases hkey : settings.maxKeyBytes = 0 <;> by_cases hvalue : settings.maxValueBytes = 0 <;>
      by_cases hcount : settings.snapshotMaxCount = 0 <;> simp [hkey, hvalue, hcount]

end Settings

namespace Store

variable {limits : Limits} {name : String} {value : Value} {fault : PutFault}

/-! ### What could be stored -/

/-- Some store with these limits takes the value under the name. -/
def Admits (limits : Limits) (name : String) (value : Value) : Prop :=
  ∃ (σ : Type) (store : Store σ) (s : Journaled (Session σ)),
    store.limits = limits ∧ (store.put name value).outcome s = .ok ()

/-- Every store with these limits refuses the value under the name, and with this fault. -/
def Rejects (limits : Limits) (name : String) (value : Value) (fault : PutFault) : Prop :=
  ∀ (σ : Type) (store : Store σ) (s : Journaled (Session σ)),
    store.limits = limits → (store.put name value).outcome s = .error fault

theorem put_ephemeral (h : accept limits name value = .ok ()) :
    (({ ephemeral Memory.medium with limits } : Store Memory).put name value).outcome
      ⟨⟨.empty, .empty⟩, []⟩ = .ok () := by
  rw [(put_course _ _ _ _).result_eq]
  simp only [h, Except.ok_bind]
  rfl

theorem admits_iff : Admits limits name value ↔ accept limits name value = .ok () := by
  constructor
  · rintro ⟨σ, store, s, rfl, hput⟩
    rw [(store.put_course name value s).result_eq] at hput
    obtain ⟨_, haccept, -⟩ := Except.bind_eq_ok_iff.1 hput
    exact haccept
  · intro h
    exact ⟨Memory, _, _, rfl, put_ephemeral h⟩

theorem rejects_iff : Rejects limits name value fault ↔ accept limits name value = .error fault := by
  constructor
  · intro h
    have hput := h Memory { ephemeral Memory.medium with limits } ⟨⟨.empty, .empty⟩, []⟩ rfl
    cases haccept : accept limits name value with
    | ok _ =>
      rw [put_ephemeral haccept] at hput
      cases hput
    | error reason =>
      rw [(put_course _ _ _ _).result_eq] at hput
      simp only [haccept, Except.error_bind] at hput
      exact hput
  · rintro h σ store s rfl
    rw [(store.put_course name value s).result_eq, h]
    rfl

/-! ### The entries of a defaults file -/

/-- The entries have this value under the name. -/
def Decodes (entries : RawObject) (name : String) (value : Value) : Prop :=
  ∃ raw, entries.get? name = some raw ∧ Value.decodeBytes raw.bytes = .ok value

/-- What the entries have under the name does not stand for a value, for this reason. -/
def Corrupts (entries : RawObject) (name : String) (fault : DecodeFault) : Prop :=
  ∃ raw, entries.get? name = some raw ∧ Value.decodeBytes raw.bytes = .error fault

/-- What comes of the entries of a defaults file: the defaults, or why there are none. -/
inductive Admission (limits : Limits) (entries : RawObject) :
    Except OpenFault (SortedMap String Value) → Prop where
  | admitted {defaults : SortedMap String Value} :
    (∀ name fault, ¬ Corrupts entries name fault) →
      (∀ name value, Decodes entries name value → Admits limits name value) →
      (∀ name value, defaults.get? name = some value ↔ Decodes entries name value) →
      Admission limits entries (.ok defaults)
  | corrupt {name : String} {fault : DecodeFault} :
    Corrupts entries name fault →
      (∀ other reason, Corrupts entries other reason → Utf8.encode name ≤ Utf8.encode other) →
      Admission limits entries (.error (.corruptDefault name fault))
  | invalid {name : String} {value : Value} {fault : PutFault} :
    (∀ name fault, ¬ Corrupts entries name fault) →
      Decodes entries name value → Rejects limits name value fault →
      (∀ other value reason, Decodes entries other value → Rejects limits other value reason →
        Utf8.encode name ≤ Utf8.encode other) →
      Admission limits entries (.error (.invalidDefault name fault))

section Passes

variable {σ : Type} {entries : RawObject} {fault : OpenFault} {values : List (String × Value)}

theorem decodeDefaults_error (h : decodeDefaults entries = .error fault) :
    ∃ name reason, fault = .corruptDefault name reason ∧ Corrupts entries name reason ∧
      ∀ other reason, Corrupts entries other reason → Utf8.encode name ≤ Utf8.encode other := by
  have hsettles : Settles _ entries.toList (decodeDefaults entries) := Settles.mapM _ _
  rw [h] at hsettles
  obtain ⟨⟨name, raw⟩, hmem, hrefuses, hleast⟩ := hsettles.exists_least entries.pairwise_encode_lt
  cases hdecode : Value.decodeBytes raw.bytes with
  | ok value => simp [hdecode] at hrefuses
  | error reason =>
    simp only [hdecode, Except.error.injEq] at hrefuses
    refine ⟨name, reason, hrefuses.symm, ⟨raw, SortedMap.mem_toList_iff.1 hmem, hdecode⟩, ?_⟩
    rintro other reason' ⟨raw', hget, hcorrupt⟩
    refine hleast (other, raw') (SortedMap.mem_toList_iff.2 hget) (.corruptDefault other reason') ?_
    simp only [hcorrupt]

/-- The values are those that the entries stand for, under the same names. -/
abbrev DecodedTo (list : List (String × RawText)) (values : List (String × Value)) : Prop :=
  List.Forall₂ (fun entry result => result.1 = entry.1 ∧
    Value.decodeBytes entry.2.bytes = .ok result.2) list values

theorem DecodedTo.names {list : List (String × RawText)} (h : DecodedTo list values) :
    values.map (·.1) = list.map (·.1) := by
  induction h with
  | nil => rfl
  | cons hhead _ ih => rw [List.map_cons, List.map_cons, hhead.1, ih]

theorem DecodedTo.mem_iff {list : List (String × RawText)} (h : DecodedTo list values)
    {name : String} {value : Value} : (name, value) ∈ values ↔
      ∃ raw, (name, raw) ∈ list ∧ Value.decodeBytes raw.bytes = .ok value := by
  induction h with
  | nil => simp
  | @cons entry result _ _ hhead _ ih =>
    obtain ⟨name', raw'⟩ := entry
    obtain ⟨_, value'⟩ := result
    obtain ⟨rfl, hdecode⟩ := hhead
    simp only [List.mem_cons, ih, Prod.mk.injEq, or_and_right, exists_or]
    refine or_congr_left ⟨?_, ?_⟩
    · rintro ⟨rfl, rfl⟩
      exact ⟨raw', ⟨rfl, rfl⟩, hdecode⟩
    · rintro ⟨raw, ⟨rfl, rfl⟩, hdecode'⟩
      exact ⟨rfl, Except.ok.inj (hdecode'.symm.trans hdecode)⟩

theorem decodeDefaults_ok (h : decodeDefaults entries = .ok values) :
    (∀ name reason, ¬ Corrupts entries name reason) ∧ ∃ defaults : SortedMap String Value,
      values = defaults.toList ∧
        ∀ name value, defaults.get? name = some value ↔ Decodes entries name value := by
  have hdecoded : DecodedTo entries.toList values := by
    refine (Except.forall₂_of_mapM h).imp ?_
    rintro ⟨name, raw⟩ ⟨name', value⟩ heq
    dsimp only at heq ⊢
    cases hdecode : Value.decodeBytes raw.bytes with
    | ok value' => simp_all
    | error reason => simp [hdecode] at heq
  have hascending : values.Pairwise fun a b => compare a.1 b.1 = .lt := by
    have hnames : (entries.toList.map (·.1)).Pairwise fun a b => compare a b = .lt :=
      List.pairwise_map.2 entries.ascending
    rw [← hdecoded.names] at hnames
    exact List.pairwise_map.1 hnames
  have hget : ∀ name value, (⟨values, hascending⟩ : SortedMap String Value).get? name = some value ↔
      Decodes entries name value := by
    intro name value
    rw [← SortedMap.mem_toList_iff]
    exact hdecoded.mem_iff.trans (exists_congr fun raw => and_congr_left' SortedMap.mem_toList_iff)
  refine ⟨?_, ⟨values, hascending⟩, rfl, hget⟩
  have hsettles : Settles _ entries.toList (decodeDefaults entries) := Settles.mapM _ _
  rw [h] at hsettles
  rintro name reason ⟨raw, hget, hcorrupt⟩
  refine hsettles (name, raw) (SortedMap.mem_toList_iff.2 hget) (.corruptDefault name reason) ?_
  simp only [hcorrupt]

theorem settles_withDefaults (store : Store σ) (values : List (String × Value)) :
    Settles (fun (entry : String × Value) fault => ∃ reason,
      accept store.limits entry.1 entry.2 = .error reason ∧
        fault = .invalidDefault entry.1 reason) values (store.withDefaults values) := by
  unfold withDefaults
  induction values generalizing store with
  | nil => exact List.forall_mem_nil _
  | cons entry rest ih =>
    rw [List.foldlM_cons]
    cases haccept : accept store.limits entry.1 entry.2 with
    | error reason =>
      rw [withDefault, vet_of_not_accept haccept]
      exact .of_refuses ⟨reason, haccept, rfl⟩
    | ok _ =>
      rw [withDefault_eq_ok_iff.2 ⟨haccept, rfl⟩]
      refine .cons ?_ (ih _)
      rintro fault ⟨reason, hreason, -⟩
      cases haccept.symm.trans hreason

/-- What comes of the two passes is what is said of the entries. -/
theorem admission_of_passes (store : Store σ) (hempty : store.defaults = .empty) :
    Admission store.limits entries
      ((decodeDefaults entries >>= store.withDefaults).map (·.defaults)) := by
  cases hdecode : decodeDefaults entries with
  | error fault =>
    obtain ⟨name, reason, rfl, hcorrupt, hleast⟩ := decodeDefaults_error hdecode
    exact .corrupt hcorrupt hleast
  | ok values =>
    obtain ⟨hsound, defaults, rfl, hget⟩ := decodeDefaults_ok hdecode
    have hsettles := store.settles_withDefaults defaults.toList
    rw [Except.ok_bind]
    cases hgiven : store.withDefaults defaults.toList with
    | ok next =>
      obtain ⟨haccept, rfl⟩ := withDefaults_eq_ok_iff.1 hgiven
      have hdefaults : defaults.toList.foldl (fun m e => m.insert e.1 e.2) store.defaults =
          defaults := by
        rw [hempty]
        exact defaults.ofList_toList
      refine .admitted hsound ?_ ?_
      · intro name value hname
        exact admits_iff.2 (haccept (name, value) (SortedMap.mem_toList_iff.2 ((hget _ _).2 hname)))
      · rw [hdefaults]
        exact hget
    | error fault =>
      rw [hgiven] at hsettles
      obtain ⟨⟨name, value⟩, hmem, ⟨reason, hreason, rfl⟩, hleast⟩ :=
        hsettles.exists_least defaults.pairwise_encode_lt
      refine .invalid hsound ((hget _ _).1 (SortedMap.mem_toList_iff.1 hmem))
        (rejects_iff.2 hreason) ?_
      intro other value' reason' hother hrejects
      exact hleast (other, value') (SortedMap.mem_toList_iff.2 ((hget _ _).2 hother)) _
        ⟨reason', rejects_iff.1 hrejects, rfl⟩

end Passes

theorem Corrupts.unique {entries : RawObject} {reason reason' : DecodeFault}
    (h : Corrupts entries name reason) (h' : Corrupts entries name reason') : reason = reason' := by
  obtain ⟨raw, hget, hcorrupt⟩ := h
  obtain ⟨raw', hget', hcorrupt'⟩ := h'
  cases hget.symm.trans hget'
  exact Except.error.inj (hcorrupt.symm.trans hcorrupt')

theorem Decodes.unique {entries : RawObject} {value' : Value} (h : Decodes entries name value)
    (h' : Decodes entries name value') : value = value' := by
  obtain ⟨raw, hget, hdecode⟩ := h
  obtain ⟨raw', hget', hdecode'⟩ := h'
  cases hget.symm.trans hget'
  exact Except.ok.inj (hdecode.symm.trans hdecode')

/-- Only one thing can come of the entries. -/
theorem Admission.unique {entries : RawObject}
    {result result' : Except OpenFault (SortedMap String Value)} (h : Admission limits entries result)
    (h' : Admission limits entries result') : result = result' := by
  have hleast : ∀ {name other : String}, Utf8.encode name ≤ Utf8.encode other →
      Utf8.encode other ≤ Utf8.encode name → name = other :=
    fun hle hge => Utf8.encode_injective (List.le_antisymm hle hge)
  cases h with
  | corrupt hcorrupt hfirst =>
    cases h' with
    | corrupt hcorrupt' hfirst' =>
      obtain rfl := hleast (hfirst _ _ hcorrupt') (hfirst' _ _ hcorrupt)
      rw [hcorrupt.unique hcorrupt']
    | admitted hsound' | invalid hsound' => exact absurd hcorrupt (hsound' _ _)
  | invalid hsound hdecodes hrejects hfirst =>
    cases h' with
    | corrupt hcorrupt' => exact absurd hcorrupt' (hsound _ _)
    | admitted _ hadmits' =>
      cases (admits_iff.1 (hadmits' _ _ hdecodes)).symm.trans (rejects_iff.1 hrejects)
    | invalid _ hdecodes' hrejects' hfirst' =>
      obtain rfl := hleast (hfirst _ _ _ hdecodes' hrejects') (hfirst' _ _ _ hdecodes hrejects)
      obtain rfl := hdecodes.unique hdecodes'
      rw [Except.error.inj ((rejects_iff.1 hrejects).symm.trans (rejects_iff.1 hrejects'))]
  | admitted hsound hadmits hget =>
    cases h' with
    | corrupt hcorrupt' => exact absurd hcorrupt' (hsound _ _)
    | invalid _ hdecodes' hrejects' =>
      cases (admits_iff.1 (hadmits _ _ hdecodes')).symm.trans (rejects_iff.1 hrejects')
    | admitted _ _ hget' =>
      congr 1
      apply SortedMap.ext
      intro name
      apply Option.ext
      intro value
      rw [hget, hget']

/-- The entries are admitted if each of them is a value that could be stored. -/
theorem Admission.exists_ok_iff {entries : RawObject}
    {result : Except OpenFault (SortedMap String Value)} (h : Admission limits entries result) :
    (∃ defaults, result = .ok defaults) ↔ ∀ name raw, entries.get? name = some raw →
      ∃ value, Value.decodeBytes raw.bytes = .ok value ∧ Admits limits name value := by
  cases h with
  | admitted hsound hadmits =>
    refine iff_of_true ⟨_, rfl⟩ ?_
    intro name raw hget
    cases hdecode : Value.decodeBytes raw.bytes with
    | ok value => exact ⟨value, rfl, hadmits name value ⟨raw, hget, hdecode⟩⟩
    | error reason => exact absurd ⟨raw, hget, hdecode⟩ (hsound name reason)
  | corrupt hcorrupt =>
    refine iff_of_false nofun fun hall => ?_
    obtain ⟨raw, hget, hfault⟩ := hcorrupt
    obtain ⟨value, hdecode, -⟩ := hall _ raw hget
    cases hdecode.symm.trans hfault
  | invalid _ hdecodes hrejects =>
    refine iff_of_false nofun fun hall => ?_
    obtain ⟨raw, hget, -⟩ := id hdecodes
    obtain ⟨value, hdecode, hadmits⟩ := hall _ raw hget
    obtain rfl := hdecodes.unique ⟨raw, hget, hdecode⟩
    cases (admits_iff.1 hadmits).symm.trans (rejects_iff.1 hrejects)

/-! ### Opening -/

/-- The defaults file writes these entries, and there is no checksum beside it or the right one. -/
def HasDefaults (files : FileSet) (disk : Disk) (entries : RawObject) : Prop :=
  ∃ bytes, disk.read files.defaults = .ok bytes ∧ WritesEntriesOf bytes entries ∧
    (disk.contains files.defaultsChecksum = false ∨
      disk.read files.defaultsChecksum = .ok (Checksum.bigEndian (Checksum.crc32 bytes)))

/-- A store answers in a state what another one answers in another state. -/
structure AnswersAs (store other : Store Mounted) (s t : Journaled (Session Mounted)) : Prop where
  keys : store.keys.outcome s = other.keys.outcome t
  get (key : String) : (store.get key).outcome s = (other.get key).outcome t
  contains (key : String) : (store.contains key).outcome s = (other.contains key).outcome t

/-- What a store on files answers depends on its limits and the entries only. -/
theorem answersAs {store other : Store Mounted} {s t : Journaled (Session Mounted)}
    (hstore : store.medium = Archive.medium) (hother : other.medium = Archive.medium)
    (hlimits : store.limits = other.limits)
    (hentries : s.state.medium.archive.entries = t.state.medium.archive.entries) :
    store.AnswersAs other s t := by
  have htells : store.medium.Tells _ := hstore ▸ Archive.tells
  have htells' : other.medium.Tells _ := hother ▸ Archive.tells
  constructor
  · rw [keys_outcome hstore, keys_outcome hother, hentries]
  · intro key
    rw [get_outcome, get_outcome, fetch_outcome_of_tells htells, fetch_outcome_of_tells htells',
      hlimits, hentries]
  · intro key
    rw [contains_outcome_of_tells htells, contains_outcome_of_tells htells', hlimits, hentries]

section Opening

variable {dir : Path} {settings : Settings} {s : Journaled Disk}

/-- A store on files with the rules of settings, before it is given defaults. -/
def onArchive (settings : Settings) (policy : Uniqueness) : Store Mounted :=
  ⟨Archive.medium, some Archive.snapshots, policy, settings.limits, .empty⟩

section Checked

variable {policy : Uniqueness} {defaultsMode mode : LoadMode} {t : Journaled Disk}
  (hcheck : settings.check = .ok ()) (hdefaults : settings.defaultsMode = .ok defaultsMode)
include hcheck hdefaults

theorem openWith_of_readDefaults_error {fault : OpenFault}
    (h : readDefaults ⟨dir, settings.instanceId⟩ defaultsMode s = .error fault t) :
    openWith dir settings s = .error fault t := by
  unfold openWith
  simp only [hcheck, hdefaults, Except.mapError_ok, Op.ofExcept_ok_bind]
  exact Op.bind_of_error h

/-- Once the settings have been checked and the defaults read, what is left is loading the files and
    going through the defaults. -/
theorem openWith_of_readDefaults {values : List (String × Value)}
    (hpolicy : settings.policy = .ok policy) (hmode : settings.loadMode = .ok mode)
    (h : readDefaults ⟨dir, settings.instanceId⟩ defaultsMode s = .ok values t) :
    (openWith dir settings).outcome s =
        (match (Archive.load ⟨dir, settings.instanceId⟩
            ⟨mode, settings.snapshotMaxCount⟩).outcome t with
        | .error fault => .error (.storage fault)
        | .ok archive =>
          ((onArchive settings policy).withDefaults values).map fun store => (store, archive)) ∧
      ((openWith dir settings).after s).state = ((Archive.load ⟨dir, settings.instanceId⟩
        ⟨mode, settings.snapshotMaxCount⟩).after t).state := by
  have hbuild : ∀ u : Journaled Disk, ∃ events,
      build Archive.medium (some Archive.snapshots) settings u =
        .ok (onArchive settings policy) ⟨u.state, events⟩ := by
    intro u
    unfold build
    rw [hcheck, hpolicy]
    exact ⟨_, rfl⟩
  unfold Op.outcome Op.after openWith
  simp only [hcheck, hdefaults, hmode, Except.mapError_ok, Op.ofExcept_ok_bind]
  rw [Op.bind_of_ok h]
  cases hload : Archive.load ⟨dir, settings.instanceId⟩ ⟨mode, settings.snapshotMaxCount⟩ t with
  | error fault u =>
    rw [Op.bind_of_error (Op.mapError_of_error hload)]
    exact ⟨rfl, rfl⟩
  | ok archive u =>
    obtain ⟨events, hevents⟩ := hbuild u
    rw [Op.bind_of_ok (Op.mapError_eq_ok_iff.2 hload), Op.bind_of_ok hevents]
    cases (onArchive settings policy).withDefaults values <;> exact ⟨rfl, rfl⟩

end Checked

variable {files : FileSet} {entries : RawObject}

theorem readDefaults_of_hasDefaults (h : HasDefaults files s.state entries) {mode : LoadMode}
    (hmode : mode ≠ .ignored) :
    ∃ events, readDefaults files mode s = Op.ofExcept (decodeDefaults entries) ⟨s.state, events⟩ := by
  obtain ⟨bytes, hread, hwrites, hchecksum⟩ := h
  have hparse := FileSet.parse_eq_ok_iff_writes.2 hwrites
  have hfound : files.readDefaults s = .ok (some entries)
      ⟨s.state, s.events ++ [.readDefaults files.defaults entries.size]⟩ := by
    unfold FileSet.readDefaults
    rw [Op.bind_of_ok (Op.look_of_ok (FileSet.readIfPresent_eq_some_iff.2 hread))]
    dsimp only
    rw [Op.bind_of_ok (Op.state_apply s)]
    cases hcontains : s.state.contains files.defaultsChecksum with
    | false =>
      rw [hparse]
      rfl
    | true =>
      have hright := hchecksum.resolve_left (by simp [hcontains])
      rw [hparse]
      exact Op.bind_of_ok (Op.look_of_ok (FileSet.verify_eq_ok_iff.2 hright))
  unfold readDefaults
  rw [if_neg hmode, Op.bind_of_ok (Op.mapError_eq_ok_iff.2 hfound)]
  exact ⟨_, rfl⟩

theorem readDefaults_of_notFound (hread : s.state.read files.defaults = .error .notFound)
    {mode : LoadMode} (hmode : mode ≠ .ignored) :
    readDefaults files mode s =
      if mode = .required then .error (.defaultsMissing files.defaults) s else .ok [] s := by
  have hfile : files.readDefaults s = .ok none s :=
    Op.bind_of_ok (Op.look_of_ok (FileSet.readIfPresent_eq_none_iff.2 hread))
  unfold readDefaults
  rw [if_neg hmode, Op.bind_of_ok (Op.mapError_eq_ok_iff.2 hfile)]
  dsimp only
  split <;> rfl

/-- The defaults file can be removed, and then everything but it is as before. -/
theorem exists_without (h : HasDefaults files s.state entries) :
    ∃ bare, s.state.remove files.defaults = .ok bare ∧
      bare.read files.defaults = .error .notFound ∧
      s.state.isDirectory files.dir ∧ bare.isDirectory files.dir ∧
      s.state.read (files.data 0) = bare.read (files.data 0) ∧
      s.state.read (files.checksum 0) = bare.read (files.checksum 0) := by
  obtain ⟨bytes, hread, -⟩ := h
  obtain ⟨hreaches, hfile⟩ := Disk.read_eq_ok_iff.1 hread
  have hplace : s.state.lookup? files.defaults.place ≠ some .directory := by
    rw [hfile]
    exact nofun
  have hdirs := Disk.hasDirectories_unset hplace
  have hdir := Disk.isDirectory_eq_true_iff.2 (Disk.Reaches.dir hreaches)
  have hsame : ∀ ending : String, '\x00' ∉ ending.toList → ending.utf8ByteSize ≤ 12 →
      ending ≠ "default.json" → s.state.read (files.file ending) =
        (s.state.unset files.defaults.place).read (files.file ending) := by
    intro ending hnull hlength hne
    refine (Disk.read_unset_ne (FileSet.reaches_file hreaches hnull hlength) hplace ?_).symm
    exact fun heq => hne (FileSet.place_file_inj heq)
  refine ⟨_, Disk.remove_eq_ok_iff.2 ⟨hreaches, ⟨bytes, hfile⟩, rfl⟩, ?_, hdir,
    Disk.isDirectory_mono hdirs hdir, hsame _ (by decide) (by decide) (by decide),
    hsame _ (by decide) (by decide) (by decide)⟩
  rw [Disk.read, Disk.find_of_reaches (hreaches.mono hdirs),
    Disk.lookup?_unset_self (Disk.ne_root_of_not_directory hplace)]
  rfl

/-- Where the defaults file is missing, but need not be there, a store without defaults is opened. -/
theorem openWith_of_notFound {policy : Uniqueness} {mode : LoadMode} {archive : Archive}
    (hcheck : settings.check = .ok ()) (hpolicy : settings.policy = .ok policy)
    (hdefaults : settings.defaultsMode = .ok .optional) (hmode : settings.loadMode = .ok mode)
    (hread : s.state.read (FileSet.defaults ⟨dir, settings.instanceId⟩) = .error .notFound)
    (hload : (Archive.load ⟨dir, settings.instanceId⟩
      ⟨mode, settings.snapshotMaxCount⟩).outcome s = .ok archive) :
    (openWith dir settings).outcome s = .ok (onArchive settings policy, archive) := by
  have hnone : readDefaults ⟨dir, settings.instanceId⟩ .optional s = .ok [] s :=
    readDefaults_of_notFound hread nofun
  rw [(openWith_of_readDefaults hcheck hdefaults hpolicy hmode hnone).1, hload]
  rfl

section Found

variable {mode : LoadMode} {archive : Archive} (hcheck : settings.check = .ok ())
  (hdefaults : settings.defaultsMode ≠ .ok .ignored) (hmode : settings.loadMode = .ok mode)
  (hfile : HasDefaults ⟨dir, settings.instanceId⟩ s.state entries)
  (hload : (Archive.load ⟨dir, settings.instanceId⟩
    ⟨mode, settings.snapshotMaxCount⟩).outcome s = .ok archive)
include hcheck hdefaults hmode hfile hload

/-- Where the defaults file is read, opening is going through its entries. -/
theorem openWith_of_hasDefaults {policy : Uniqueness} (hpolicy : settings.policy = .ok policy) :
    (openWith dir settings).outcome s =
      (decodeDefaults entries >>= (onArchive settings policy).withDefaults).map
        fun store => (store, archive) := by
  obtain ⟨-, -, -, -, ⟨defaultsMode, hdefaultsMode⟩, -⟩ := Settings.check_eq_ok_iff.1 hcheck
  have hread : defaultsMode ≠ .ignored := fun heq => hdefaults (heq ▸ hdefaultsMode)
  obtain ⟨events, hpasses⟩ := readDefaults_of_hasDefaults hfile hread
  obtain ⟨_, -, -, hdir, -⟩ := exists_without hfile
  have hloads : (Archive.load ⟨dir, settings.instanceId⟩
      ⟨mode, settings.snapshotMaxCount⟩).outcome ⟨s.state, events⟩ = .ok archive := by
    rw [← hload]
    exact Archive.load_outcome_congr hdir hdir rfl rfl
  cases hdecode : decodeDefaults entries with
  | error fault =>
    rw [hdecode] at hpasses
    exact Op.outcome_of_error (openWith_of_readDefaults_error hcheck hdefaultsMode hpasses)
  | ok values =>
    rw [hdecode] at hpasses
    rw [(openWith_of_readDefaults hcheck hdefaultsMode hpolicy hmode hpasses).1, hloads]
    rfl

/-- What comes of the opening is what is said of the entries. -/
theorem openWith_admission : Admission settings.limits entries
    (((openWith dir settings).outcome s).map (·.1.defaults)) := by
  obtain ⟨⟨policy, hpolicy⟩, -⟩ := Settings.check_eq_ok_iff.1 hcheck
  have hpasses : Admission settings.limits entries _ :=
    admission_of_passes (onArchive settings policy) rfl
  rw [openWith_of_hasDefaults hcheck hdefaults hmode hfile hload hpolicy]
  cases hresult : decodeDefaults entries >>= (onArchive settings policy).withDefaults with
  | error fault =>
    rw [hresult] at hpasses
    exact hpasses
  | ok store =>
    rw [hresult] at hpasses
    exact hpasses

/-- But for the defaults, the store is the one that is opened without the file. -/
theorem openWith_without {store : Store Mounted} {opened : Archive}
    (hopen : (openWith dir settings).outcome s = .ok (store, opened)) :
    opened = archive ∧ ∃ bare other,
      s.state.remove (FileSet.defaults ⟨dir, settings.instanceId⟩) = .ok bare ∧
        (openWith dir { settings with defaults := "optional" }).outcome ⟨bare, s.events⟩ =
          .ok (other, archive) ∧
        ∀ t u : Journaled (Session Mounted),
          t.state.medium.archive.entries = u.state.medium.archive.entries →
            store.AnswersAs other t u := by
  obtain ⟨⟨policy, hpolicy⟩, hkey, hvalue, hcount, -, -⟩ := Settings.check_eq_ok_iff.1 hcheck
  rw [openWith_of_hasDefaults hcheck hdefaults hmode hfile hload hpolicy] at hopen
  obtain ⟨next, hnext, hpair⟩ := Except.map_eq_ok_iff.1 hopen
  cases hpair
  obtain ⟨values, -, hgiven⟩ := Except.bind_eq_ok_iff.1 hnext
  obtain ⟨hmedium, -, hlimits⟩ := withDefaults_eq hgiven
  obtain ⟨bare, hremove, hnone, hdir, hdir', hdata, hchecksum⟩ := exists_without hfile
  have hcheck' : Settings.check { settings with defaults := "optional" } = .ok () :=
    Settings.check_eq_ok_iff.2
      ⟨⟨policy, hpolicy⟩, hkey, hvalue, hcount, ⟨.optional, rfl⟩, mode, hmode⟩
  have hload' : (Archive.load ⟨dir, settings.instanceId⟩
      ⟨mode, settings.snapshotMaxCount⟩).outcome ⟨bare, s.events⟩ = .ok archive := by
    rw [← hload]
    exact (Archive.load_outcome_congr hdir hdir' hdata hchecksum).symm
  refine ⟨rfl, bare, _, hremove, openWith_of_notFound hcheck' hpolicy rfl hmode hnone hload', ?_⟩
  exact fun t u hentries => answersAs hmedium rfl hlimits hentries

end Found

/-- With settings that can be used, and a data file that can be opened, a defaults file that writes some
    entries is admitted just if each of them is a value that could be stored under its name. Otherwise
    the least name with a text that is no value is the fault, and if there is none the least with a
    value that could not be stored. What has been admitted are the defaults, and else the store is the
    one that is opened without the file. -/
theorem defaults_file_admitted {mode : LoadMode} {archive : Archive}
    (hcheck : settings.check = .ok ()) (hdefaults : settings.defaultsMode ≠ .ok .ignored)
    (hmode : settings.loadMode = .ok mode)
    (hfile : HasDefaults ⟨dir, settings.instanceId⟩ s.state entries)
    (hload : (Archive.load ⟨dir, settings.instanceId⟩
      ⟨mode, settings.snapshotMaxCount⟩).outcome s = .ok archive) :
    ((∃ opened, (openWith dir settings).outcome s = .ok opened) ↔
        ∀ name raw, entries.get? name = some raw →
          ∃ value, Value.decodeBytes raw.bytes = .ok value ∧ Admits settings.limits name value) ∧
      (∀ result, ((openWith dir settings).outcome s).map (·.1.defaults) = result ↔
        Admission settings.limits entries result) ∧
      ∀ store opened, (openWith dir settings).outcome s = .ok (store, opened) →
        (∀ name value, store.getDefault name = .ok value ↔ Decodes entries name value) ∧
          opened = archive ∧ ∃ bare other,
            s.state.remove (FileSet.defaults ⟨dir, settings.instanceId⟩) = .ok bare ∧
              (openWith dir { settings with defaults := "optional" }).outcome ⟨bare, s.events⟩ =
                .ok (other, archive) ∧
              ∀ t u : Journaled (Session Mounted),
                t.state.medium.archive.entries = u.state.medium.archive.entries →
                  store.AnswersAs other t u := by
  have hadmission := openWith_admission hcheck hdefaults hmode hfile hload
  refine ⟨?_, ?_, ?_⟩
  · rw [← hadmission.exists_ok_iff]
    cases (openWith dir settings).outcome s with
    | ok opened => exact iff_of_true ⟨_, rfl⟩ ⟨_, rfl⟩
    | error fault => exact iff_of_false nofun nofun
  · intro result
    constructor
    · rintro rfl
      exact hadmission
    · exact hadmission.unique
  · intro store opened hopen
    refine ⟨?_, openWith_without hcheck hdefaults hmode hfile hload hopen⟩
    rw [hopen] at hadmission
    cases hadmission with
    | admitted _ _ hget =>
      intro name value
      exact getDefault_eq_ok_iff.trans (hget name value)

/-- A file with a name that is no key, with a text that is no value and with a name twice, of which the
    second time counts; and one with the last of these alone. -/
theorem defaults_file_admitted_torn :
    let torn := Utf8.encode ("\x7b\"b c\":\x7b\"t\":\"null\",\"v\":null\x7d,\"z\":1,\"y\":1," ++
      "\"z\":\x7b\"t\":\"null\",\"v\":null\x7d\x7d")
    let mended := Utf8.encode "\x7b\"z\":1,\"z\":\x7b\"t\":\"null\",\"v\":null\x7d\x7d"
    let on (bytes : Bytes) : Journaled Disk :=
      ⟨(Disk.empty.set ["d"] .directory).set ["d", "kvs_0_default.json"] (.file bytes), []⟩
    let entries (bytes : Bytes) : RawObject := (RawObject.ofBytes? bytes).getD .empty
    Admission ({} : Settings).limits (entries torn)
        (.error (.corruptDefault "y" (.malformed [] (.notObject "integer")))) ∧
      ∃ store opened, (openWith ["d"] {}).outcome (on mended) = .ok (store, opened) ∧
        store.getDefault "z" = .ok .null := by
  intro torn mended on entries
  have hfile : ∀ bytes, RawObject.ofBytes? bytes = some (entries bytes) →
      (on bytes).state.read (FileSet.defaults ⟨["d"], 0⟩) = .ok bytes →
      (on bytes).state.contains (FileSet.defaultsChecksum ⟨["d"], 0⟩) = false →
        HasDefaults ⟨["d"], 0⟩ (on bytes).state (entries bytes) := fun bytes hparse hread habsent =>
    ⟨bytes, hread, RawObject.ofBytes?_eq_some_iff.1 hparse, .inl habsent⟩
  have hcheck : Settings.check {} = .ok () := by decide
  have hmode : Settings.loadMode {} = .ok .optional := by decide
  constructor
  · have htorn := hfile torn (by decide +kernel) (by decide +kernel) (by decide +kernel)
    have hload : (Archive.load ⟨["d"], 0⟩ ⟨.optional, 3⟩).outcome (on torn) =
        .ok ⟨⟨["d"], 0⟩, 3, .empty, none⟩ := by decide +kernel
    obtain ⟨-, hadmission, -⟩ := defaults_file_admitted hcheck (by decide) hmode htorn hload
    have hfault : ((openWith ["d"] {}).outcome (on torn)).map (fun _ => ()) =
        .error (.corruptDefault "y" (.malformed [] (.notObject "integer"))) := by decide +kernel
    exact (hadmission _).1 (Except.map_eq_error_iff.2 (Except.map_eq_error_iff.1 hfault))
  · have hmended := hfile mended (by decide +kernel) (by decide +kernel) (by decide +kernel)
    have hload : (Archive.load ⟨["d"], 0⟩ ⟨.optional, 3⟩).outcome (on mended) =
        .ok ⟨⟨["d"], 0⟩, 3, .empty, none⟩ := by decide +kernel
    obtain ⟨-, -, hopened⟩ := defaults_file_admitted hcheck (by decide) hmode hmended hload
    have hok : ((openWith ["d"] {}).outcome (on mended)).map (fun _ => ()) = .ok () := by
      decide +kernel
    obtain ⟨⟨store, opened⟩, houtcome, -⟩ := Except.map_eq_ok_iff.1 hok
    obtain ⟨hdefaults, -⟩ := hopened store opened houtcome
    refine ⟨store, opened, houtcome, (hdefaults "z" .null).2 ?_⟩
    let raw : RawText := ⟨Value.null.encoding.toList, by decide +kernel, by decide +kernel⟩
    have hraw : raw.bytes = Utf8.encode Value.null.encoding := by decide +kernel
    refine ⟨raw, by decide +kernel, ?_⟩
    rw [hraw]
    exact Value.decodeBytes_encoding trivial (by decide)

end Opening

end Store

end TypedStore
