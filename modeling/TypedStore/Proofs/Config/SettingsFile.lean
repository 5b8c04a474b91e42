/-
  TypedStore/Proofs/Config/SettingsFile.lean
  ==========================================
  **What a settings file says.**

  The seven settings are treated alike: each has a key and a value, a string or a natural number
  (`Settings.value`), so a setting that reading or writing left out or took for another would break the
  lemmas about all of them. A document says what its entry for a setting says, or the default if it has
  none (`ofDocument?_eq_some_iff`). The document of written settings has an entry for each
  (`documentOf?_written`). Writing fails only for a number that TOML does not have, before the disk is
  touched; every other combination of settings that can be used is read back
  (`settings_file_roundtrip`).

  Checking settings goes through six of them in an order and ends with the first that cannot be used
  (`settles_check`).
-/
import TypedStore.Config.File
import TypedStore.Proofs.Codec.Utf8
import TypedStore.Proofs.Config.Lines
import TypedStore.Proofs.Disk.Files
import TypedStore.Proofs.FirstRefusal
import TypedStore.Proofs.Operations

namespace TypedStore

/-- The settings of a store by name. -/
inductive Setting where
  | uniqueness
  | instanceId
  | maxKeyBytes
  | maxValueBytes
  | snapshotMaxCount
  | defaults
  | kvsLoad
deriving DecidableEq

/-- The value of a setting, as a file gives it. -/
inductive SettingValue where
  | name (s : String)
  | number (n : Nat)
deriving DecidableEq

namespace Setting

/-- All settings, in the order in which a file is written. -/
def all : List Setting :=
  [uniqueness, instanceId, maxKeyBytes, maxValueBytes, snapshotMaxCount, defaults, kvsLoad]

/-- The settings that may be unusable, in the order in which they are checked. -/
def checked : List Setting :=
  [uniqueness, maxKeyBytes, maxValueBytes, snapshotMaxCount, defaults, kvsLoad]

/-- The key of a setting in a file. -/
def key : Setting → String
  | uniqueness => "uniqueness"
  | instanceId => "instance_id"
  | maxKeyBytes => "max_key_bytes"
  | maxValueBytes => "max_value_bytes"
  | snapshotMaxCount => "snapshot_max_count"
  | defaults => "defaults"
  | kvsLoad => "kvs_load"

theorem mem_all (setting : Setting) : setting ∈ all := by cases setting <;> decide

theorem isBare_key (setting : Setting) : Toml.IsBare setting.key.toList := by
  cases setting <;> exact ⟨by decide +kernel, by decide +kernel⟩

end Setting

namespace SettingValue

/-- The value in a document. -/
def item : SettingValue → Toml.Item
  | name s => .string s
  | number n => .scalar (.integer n)

/-- The line that gives a key the value, if TOML has one. -/
def line? (key : String) : SettingValue → Option (List Char)
  | name s => some (Toml.stringLine key s)
  | number n => Toml.integerLine? key n

theorem line?_eq_none_iff {key : String} {value : SettingValue} :
    value.line? key = none ↔ ∃ n, value = number n ∧ 0x7FFFFFFFFFFFFFFF < n := by
  rcases value with s | n
  · simp [line?]
  · simp [line?, Toml.integerLine?_eq_none_iff, Nat.lt_iff_add_one_le]

theorem writesLine {key : String} {value : SettingValue} {line : List Char}
    (hkey : Toml.IsBare key.toList)
    (hplain : ∀ s, value = name s → ∀ c ∈ s.toList, Toml.IsPlainChar c)
    (hline : value.line? key = some line) : Toml.WritesLine line (key, value.item) := by
  rcases value with s | n
  · obtain rfl := Option.some.inj hline
    exact Toml.writesLine_stringLine hkey (hplain s rfl)
  · exact Toml.writesLine_integerLine? hkey hline

end SettingValue

namespace Settings

variable {c : Settings} {document : Toml.Entries}

def value (c : Settings) : Setting → SettingValue
  | .uniqueness => .name c.uniqueness
  | .instanceId => .number c.instanceId
  | .maxKeyBytes => .number c.maxKeyBytes
  | .maxValueBytes => .number c.maxValueBytes
  | .snapshotMaxCount => .number c.snapshotMaxCount
  | .defaults => .name c.defaults
  | .kvsLoad => .name c.kvsLoad

/-! ### Reading -/

/-- What a document says of a setting: the value of its entry, or the default if it has none. -/
def Says (document : Toml.Entries) (setting : Setting) (value : SettingValue) : Prop :=
  (Json.find? setting.key document).elim (value = Settings.value {} setting) (· = value.item)

theorem stringAt?_eq_some_iff {setting : Setting} {default s : String}
    (hdefault : Settings.value {} setting = .name default) :
    stringAt? setting.key default document = some s ↔ Says document setting (.name s) := by
  simp only [stringAt?, Says, hdefault]
  rcases Json.find? setting.key document with _ | item
  · simp [eq_comm]
  · rcases item with scalar | t | items | ⟨origin, entries⟩ | ⟨earlier, last⟩ <;>
      simp [SettingValue.item]

theorem numberAt?_eq_some_iff {setting : Setting} {default n : Nat}
    (hdefault : Settings.value {} setting = .number default) :
    numberAt? setting.key default document = some n ↔ Says document setting (.number n) := by
  simp only [numberAt?, Says, hdefault]
  rcases Json.find? setting.key document with _ | item
  · simp [eq_comm]
  · rcases item with scalar | t | items | ⟨origin, entries⟩ | ⟨earlier, last⟩
    · rcases scalar with b | m | _ | _ <;> simp [SettingValue.item]
      omega
    all_goals simp [SettingValue.item]

/-- Each setting that is read is what the document says of it. -/
theorem ofDocument?_eq_some_iff :
    ofDocument? document = some c ↔ ∀ setting, Says document setting (c.value setting) := by
  constructor
  · intro h
    simp only [ofDocument?, Option.bind_eq_bind, Option.bind_eq_some_iff, Option.pure_def,
      Option.some.injEq] at h
    obtain ⟨uniqueness, huniqueness, instanceId, hinstance, maxKeyBytes, hkeys, maxValueBytes,
      hvalues, snapshotMaxCount, hsnapshots, defaults, hdefaults, kvsLoad, hload, rfl⟩ := h
    rintro (_ | _ | _ | _ | _ | _ | _)
    · exact (stringAt?_eq_some_iff rfl).1 huniqueness
    · exact (numberAt?_eq_some_iff rfl).1 hinstance
    · exact (numberAt?_eq_some_iff rfl).1 hkeys
    · exact (numberAt?_eq_some_iff rfl).1 hvalues
    · exact (numberAt?_eq_some_iff rfl).1 hsnapshots
    · exact (stringAt?_eq_some_iff rfl).1 hdefaults
    · exact (stringAt?_eq_some_iff rfl).1 hload
  · intro h
    have huniqueness := (stringAt?_eq_some_iff rfl).2 (h .uniqueness)
    have hinstance := (numberAt?_eq_some_iff rfl).2 (h .instanceId)
    have hkeys := (numberAt?_eq_some_iff rfl).2 (h .maxKeyBytes)
    have hvalues := (numberAt?_eq_some_iff rfl).2 (h .maxValueBytes)
    have hsnapshots := (numberAt?_eq_some_iff rfl).2 (h .snapshotMaxCount)
    have hdefaults := (stringAt?_eq_some_iff rfl).2 (h .defaults)
    have hload := (stringAt?_eq_some_iff rfl).2 (h .kvsLoad)
    simp only [Setting.key] at huniqueness hinstance hkeys hvalues hsnapshots hdefaults hload
    simp [ofDocument?, huniqueness, hinstance, hkeys, hvalues, hsnapshots, hdefaults, hload]

/-! ### Writing -/

/-- Some number is beyond those that TOML has. -/
def Exceeds (c : Settings) : Prop :=
  ∃ setting n, c.value setting = .number n ∧ 0x7FFFFFFFFFFFFFFF < n

/-- The document of the settings, with an entry for each of them. -/
def entries (c : Settings) : Toml.Entries :=
  Setting.all.map fun setting => (setting.key, (c.value setting).item)

theorem nodup_entries (c : Settings) : (c.entries.map (·.1)).Nodup := by
  have hkeys : (Setting.all.map Setting.key).Nodup := by decide +kernel
  rwa [entries, List.map_map]

theorem find?_entries (c : Settings) (setting : Setting) :
    Json.find? setting.key c.entries = some (c.value setting).item := by
  cases setting <;> simp [entries, Setting.all, Setting.key, Json.find?]

theorem ofDocument?_entries (c : Settings) : ofDocument? c.entries = some c := by
  rw [ofDocument?_eq_some_iff]
  intro setting
  rw [Says, find?_entries]
  rfl

theorem write?_eq (c : Settings) : c.write? =
    (Setting.all.mapM fun setting => (c.value setting).line? setting.key).bind fun lines =>
      some (String.ofList lines.flatten) := by
  have hlines : (Setting.all.map fun setting => (c.value setting).line? setting.key).mapM id =
      Setting.all.mapM fun setting => (c.value setting).line? setting.key := by
    rw [List.mapM_map]
    rfl
  rw [← hlines]
  rfl

theorem write?_eq_none_iff : c.write? = none ↔ c.Exceeds := by
  have hlines : c.write? = none ↔
      (Setting.all.mapM fun setting => (c.value setting).line? setting.key) = none := by
    rw [write?_eq]
    rcases Setting.all.mapM fun setting => (c.value setting).line? setting.key with _ | lines <;> simp
  rw [hlines, Option.mapM_eq_none_iff]
  simp [SettingValue.line?_eq_none_iff, Setting.mem_all, Exceeds]

/-- The text of settings whose names are plain writes the document of the settings. -/
theorem documentOf?_written
    (hplain : ∀ setting s, c.value setting = .name s → ∀ d ∈ s.toList, Toml.IsPlainChar d)
    {text : String} (htext : c.write? = some text) : Toml.documentOf? text = some c.entries := by
  rw [write?_eq, Option.bind_eq_some_iff] at htext
  obtain ⟨lines, hlines, heq⟩ := htext
  obtain rfl := Option.some.inj heq
  have hwrites : List.Forall₂ Toml.WritesLine lines c.entries := by
    rw [entries, List.forall₂_map_right_iff]
    exact (Option.forall₂_of_mapM hlines).flip.imp fun line setting hline =>
      SettingValue.writesLine setting.isBare_key (hplain setting) hline
  exact Toml.documentOf?_of_writesLines hwrites c.nodup_entries

/-! ### Checking -/

/-- A setting cannot be used, and this is the fault it is reported with. -/
inductive Refuses (c : Settings) : Setting → SettingFault → Prop where
  | uniqueness : c.uniqueness ∉ ["reject", "overwrite"] →
      Refuses c .uniqueness (.uniqueness c.uniqueness)
  | maxKeyBytes : c.maxKeyBytes = 0 → Refuses c .maxKeyBytes .zeroKeyBytes
  | maxValueBytes : c.maxValueBytes = 0 → Refuses c .maxValueBytes .zeroValueBytes
  | snapshotMaxCount : c.snapshotMaxCount = 0 → Refuses c .snapshotMaxCount .zeroSnapshots
  | defaults : c.defaults ∉ ["ignored", "optional", "required"] →
      Refuses c .defaults (.defaults c.defaults)
  | kvsLoad : c.kvsLoad ∉ ["ignored", "optional", "required"] →
      Refuses c .kvsLoad (.kvsLoad c.kvsLoad)

/-- The fault names the setting. -/
theorem Refuses.setting {setting : Setting} {fault : SettingFault} (h : c.Refuses setting fault) :
    fault.setting = setting.key := by
  cases h <;> rfl

theorem Refuses.unique (setting : Setting) (fault other : SettingFault)
    (h : c.Refuses setting fault) (hother : c.Refuses setting other) : fault = other := by
  cases h <;> cases hother <;> rfl

theorem policyOfName?_eq_none_iff {s : String} :
    Uniqueness.ofName? s = none ↔ s ∉ ["reject", "overwrite"] := by
  simp only [Uniqueness.ofName?, List.find?_eq_none, List.forall_mem_cons, Uniqueness.name]
  simp [eq_comm]

theorem modeOfName?_eq_none_iff {s : String} :
    LoadMode.ofName? s = none ↔ s ∉ ["ignored", "optional", "required"] := by
  simp only [LoadMode.ofName?, List.find?_eq_none, List.forall_mem_cons, LoadMode.name]
  simp [eq_comm]

/-- The settings are checked one after the other. -/
theorem settles_check (c : Settings) : Settles c.Refuses Setting.checked c.check := by
  have hpolicy : Settles c.Refuses [.uniqueness] c.policy :=
    .ofOption (fun hnone => .uniqueness (policyOfName?_eq_none_iff.1 hnone))
      fun hsome _ (.uniqueness hname) => hsome (policyOfName?_eq_none_iff.2 hname)
  have hdefaults : Settles c.Refuses [.defaults] c.defaultsMode :=
    .ofOption (fun hnone => .defaults (modeOfName?_eq_none_iff.1 hnone))
      fun hsome _ (.defaults hname) => hsome (modeOfName?_eq_none_iff.2 hname)
  have hload : Settles c.Refuses [.kvsLoad] c.loadMode :=
    .ofOption (fun hnone => .kvsLoad (modeOfName?_eq_none_iff.1 hnone))
      fun hsome _ (.kvsLoad hname) => hsome (modeOfName?_eq_none_iff.2 hname)
  refine hpolicy.bind fun _ _ => ?_
  refine .guard .maxKeyBytes (fun hpos _ (.maxKeyBytes hzero) => hpos hzero) ?_
  refine .guard .maxValueBytes (fun hpos _ (.maxValueBytes hzero) => hpos hzero) ?_
  refine .guard .snapshotMaxCount (fun hpos _ (.snapshotMaxCount hzero) => hpos hzero) ?_
  exact hdefaults.bind fun _ _ => hload.bind fun _ _ => List.forall_mem_nil _

theorem check_eq_error_iff {fault : SettingFault} :
    c.check = .error fault ↔ FirstRefusal c.Refuses Setting.checked fault :=
  c.settles_check.eq_error_iff Refuses.unique

/-- The names of settings that can be used are written as they are. -/
theorem plain_of_check (h : c.check = .ok ()) (setting : Setting) (s : String)
    (hvalue : c.value setting = .name s) : ∀ d ∈ s.toList, Toml.IsPlainChar d := by
  have hpass := c.settles_check.eq_ok_iff.1 h
  have hnames : s ∈ ["reject", "overwrite", "ignored", "optional", "required"] := by
    by_contra hother
    simp only [List.mem_cons, List.not_mem_nil, or_false, not_or] at hother
    rcases setting with _ | _ | _ | _ | _ | _ | _ <;> cases hvalue
    · exact hpass .uniqueness (by decide) _ (.uniqueness (by simp [hother]))
    · exact hpass .defaults (by decide) _ (.defaults (by simp [hother]))
    · exact hpass .kvsLoad (by decide) _ (.kvsLoad (by simp [hother]))
  have hbare : s.toList.all Toml.isBareChar := by
    have hall : ∀ name ∈ ["reject", "overwrite", "ignored", "optional", "required"],
        name.toList.all Toml.isBareChar := by decide +kernel
    exact hall s hnames
  exact fun d hd => Toml.isPlainChar_of_isBareChar (List.all_eq_true.1 hbare d hd)

/-! ### Texts -/

variable {path : Path} {text : String}

theorem parse_eq_ok_iff : parse path text = .ok c ↔
    (Toml.documentOf? text).bind ofDocument? = some c ∧ c.check = .ok () := by
  unfold parse
  rcases (Toml.documentOf? text).bind ofDocument? with _ | d
  · simp
  · constructor
    · intro h
      rcases hcheck : d.check with fault | ⟨⟩
      · simp [hcheck] at h
      · simp only [hcheck, Except.ok.injEq] at h
        exact ⟨by rw [h], by rw [← h, hcheck]⟩
    · rintro ⟨heq, hcheck⟩
      obtain rfl := Option.some.inj heq
      simp [hcheck]

theorem parse_eq_error_setting_iff {fault : SettingFault} :
    parse path text = .error (.setting fault) ↔
      ∃ c, (Toml.documentOf? text).bind ofDocument? = some c ∧ c.check = .error fault := by
  unfold parse
  rcases (Toml.documentOf? text).bind ofDocument? with _ | d
  · simp
  · rcases hcheck : d.check with other | ⟨⟩ <;> simp [hcheck]

theorem parse_written (hcheck : c.check = .ok ()) (htext : c.write? = some text) :
    parse path text = .ok c := by
  rw [parse_eq_ok_iff, documentOf?_written (plain_of_check hcheck) htext, Option.bind_some]
  exact ⟨c.ofDocument?_entries, hcheck⟩

/-! ### Files -/

variable {disk other : Disk}

theorem toFile_eq_error_noNumber_iff : c.toFile path disk = .error .noNumber ↔ c.Exceeds := by
  rw [← write?_eq_none_iff, toFile]
  rcases c.write? with _ | text
  · simp
  · rcases hwrite : disk.write path (Utf8.encode text) with fault | other <;> simp [hwrite]

/-- Settings that can be used and written are read back. -/
theorem ofFile_toFile (hcheck : c.check = .ok ()) (hfits : ¬ c.Exceeds) {bytes : Bytes}
    (hwritable : disk.write path bytes = .ok other) :
    ∃ written, c.toFile path disk = .ok written ∧ ofFile path written = .ok c := by
  rcases htext : c.write? with _ | text
  · exact absurd (write?_eq_none_iff.1 htext) hfits
  · obtain ⟨written, hwrite, hread⟩ := Disk.read_of_write hwritable (Utf8.encode text)
    refine ⟨written, by simp [toFile, htext, hwrite], ?_⟩
    simp only [ofFile, hread, Utf8.decode_encode]
    exact parse_written hcheck htext

/-- Settings that can be used fail to be written as such only for a number that TOML does not have, and
    then the disk is left as it is; otherwise a file that can be written is read as the same settings.
    A text is read only as settings that can be used, with the defaults for those that it does not
    mention; however many of them cannot be used, the first in the order of the checks is reported. -/
theorem settings_file_roundtrip (path : Path) :
    (∀ (c : Settings) (session : Journaled Disk), c.check = .ok () →
      (∀ after, Op.change (c.toFile path) session = .error .noNumber after ↔
        c.Exceeds ∧ after = session) ∧
      (¬ c.Exceeds → (∃ bytes other, session.state.write path bytes = .ok other) →
        ∃ written, Op.change (c.toFile path) session = .ok () ⟨written, session.events⟩ ∧
          ofFile path written = .ok c)) ∧
    ∀ text,
      (∀ c, parse path text = .ok c →
        c.check = .ok () ∧ ∃ document, Toml.documentOf? text = some document ∧
          ∀ setting, Json.find? setting.key document = none →
            c.value setting = Settings.value {} setting) ∧
      ∀ fault, parse path text = .error (.setting fault) ↔
        ∃ document c, Toml.documentOf? text = some document ∧ ofDocument? document = some c ∧
          FirstRefusal c.Refuses Setting.checked fault := by
  refine ⟨fun c session hcheck => ⟨fun after => ?_, ?_⟩, fun text => ⟨fun c hparse => ?_, ?_⟩⟩
  · rw [Op.change_eq_error_iff, toFile_eq_error_noNumber_iff]
  · rintro hfits ⟨bytes, other, hwritable⟩
    obtain ⟨written, hwritten, hread⟩ := ofFile_toFile hcheck hfits hwritable
    exact ⟨written, Op.change_eq_ok_iff.2 ⟨written, hwritten, rfl⟩, hread⟩
  · obtain ⟨hdocument, hcheck⟩ := parse_eq_ok_iff.1 hparse
    obtain ⟨document, htext, hsettings⟩ := Option.bind_eq_some_iff.1 hdocument
    refine ⟨hcheck, document, htext, fun setting habsent => ?_⟩
    have hsays := ofDocument?_eq_some_iff.1 hsettings setting
    rwa [Says, habsent] at hsays
  · intro fault
    simp only [parse_eq_error_setting_iff, Option.bind_eq_some_iff, check_eq_error_iff]
    constructor
    · rintro ⟨c, ⟨document, htext, hsettings⟩, hfirst⟩
      exact ⟨document, c, htext, hsettings, hfirst⟩
    · rintro ⟨document, c, htext, hsettings, hfirst⟩
      exact ⟨c, ⟨document, htext, hsettings⟩, hfirst⟩

/-- The widest number is written and read, the next one is not written; of two settings that cannot be
    used, the one that is checked first is reported although it is written last. -/
theorem settings_file_roundtrip_widest :
    let path : Path := ["d", "tagkv.toml"]
    let disk := Disk.empty.set ["d"] .directory
    let c : Settings :=
      { uniqueness := "overwrite", instanceId := 0x7FFFFFFFFFFFFFFF, kvsLoad := "ignored" }
    let wider : Settings := { c with instanceId := 0x8000000000000000 }
    (∃ written, Op.change (c.toFile path) ⟨disk, []⟩ = .ok () ⟨written, []⟩ ∧
        ofFile path written = .ok c) ∧
      Op.change (wider.toFile path) ⟨disk, []⟩ = .error .noNumber ⟨disk, []⟩ ∧
      (∃ document, Toml.documentOf? "kvs_load = \"ignored\"" = some document ∧
        ∀ setting, Json.find? setting.key document = none →
          Settings.value { kvsLoad := "ignored" } setting = Settings.value {} setting) ∧
      ∃ document unusable,
        Toml.documentOf? "defaults = \"\"\nmax_value_bytes = 0" = some document ∧
          ofDocument? document = some unusable ∧
            FirstRefusal unusable.Refuses Setting.checked .zeroValueBytes := by
  intro path disk c wider
  obtain ⟨hfile, htext⟩ := settings_file_roundtrip path
  have hwritable : disk.write path [] = .ok (disk.set path (.file [])) := by decide +kernel
  have hfits : ¬ c.Exceeds := by
    rw [← write?_eq_none_iff]
    decide +kernel
  have hparse : parse path "kvs_load = \"ignored\"" = .ok { kvsLoad := "ignored" } := by
    decide +kernel
  have hreported : parse path "defaults = \"\"\nmax_value_bytes = 0" =
      .error (.setting .zeroValueBytes) := by decide +kernel
  refine ⟨(hfile c ⟨disk, []⟩ (by decide)).2 hfits ⟨[], _, hwritable⟩, ?_,
    ((htext _).1 _ hparse).2, ((htext _).2 _).1 hreported⟩
  exact ((hfile wider ⟨disk, []⟩ (by decide)).1 _).2 ⟨⟨.instanceId, _, rfl, by decide⟩, rfl⟩

end Settings

end TypedStore
