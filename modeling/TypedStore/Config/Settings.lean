/-
  TypedStore/Config/Settings.lean
  ===============================
  **The settings of a store.**

  Settings are kept as a settings file gives them, so choices are names that may be wrong.
  `Settings.check` goes through them in a fixed order and reports the first that cannot be used;
  every setting has a value that is used when a file does not mention it.
-/
import TypedStore.Config.Mode
import TypedStore.Limits

namespace TypedStore

structure Settings where
  /-- The name of a `Uniqueness`. -/
  uniqueness : String := "reject"
  /-- Which of the stores in a directory is meant. -/
  instanceId : Nat := 0
  maxKeyBytes : Nat := 32
  maxValueBytes : Nat := 1024
  /-- How many generations of the data file are kept, with the current one. -/
  snapshotMaxCount : Nat := 3
  /-- The name of the `LoadMode` of the defaults file. -/
  defaults : String := "optional"
  /-- The name of the `LoadMode` of the data file. -/
  kvsLoad : String := "optional"
deriving DecidableEq, Repr

inductive SettingFault where
  | uniqueness (name : String)
  | zeroKeyBytes
  | zeroValueBytes
  | zeroSnapshots
  | defaults (name : String)
  | kvsLoad (name : String)
deriving DecidableEq, Repr

namespace SettingFault

def setting : SettingFault → String
  | .uniqueness _ => "uniqueness"
  | .zeroKeyBytes => "max_key_bytes"
  | .zeroValueBytes => "max_value_bytes"
  | .zeroSnapshots => "snapshot_max_count"
  | .defaults _ => "defaults"
  | .kvsLoad _ => "kvs_load"

def reason : SettingFault → String
  | .uniqueness name => "'" ++ name ++ "', expected \"reject\" or \"overwrite\""
  | .zeroKeyBytes | .zeroValueBytes => "must be at least 1"
  | .zeroSnapshots => "must be at least 1 (the current file)"
  | .defaults name | .kvsLoad name =>
    "'" ++ name ++ "', expected \"ignored\", \"optional\" or \"required\""

def message (fault : SettingFault) : String :=
  "Invalid " ++ fault.setting ++ " in tagkv.toml: " ++ fault.reason

end SettingFault

def Uniqueness.ofSetting (name : String) : Except SettingFault Uniqueness :=
  (ofName? name).elim (.error (.uniqueness name)) .ok

namespace Settings

def policy (s : Settings) : Except SettingFault Uniqueness := Uniqueness.ofSetting s.uniqueness

def defaultsMode (s : Settings) : Except SettingFault LoadMode :=
  (LoadMode.ofName? s.defaults).elim (.error (.defaults s.defaults)) .ok

def loadMode (s : Settings) : Except SettingFault LoadMode :=
  (LoadMode.ofName? s.kvsLoad).elim (.error (.kvsLoad s.kvsLoad)) .ok

def limits (s : Settings) : Limits := ⟨s.maxKeyBytes, s.maxValueBytes⟩

/-- Whether every setting can be used; if not, the first that cannot. -/
def check (s : Settings) : Except SettingFault Unit := do
  let _ ← s.policy
  if s.maxKeyBytes = 0 then throw .zeroKeyBytes
  if s.maxValueBytes = 0 then throw .zeroValueBytes
  if s.snapshotMaxCount = 0 then throw .zeroSnapshots
  let _ ← s.defaultsMode
  let _ ← s.loadMode

/-- The settings with choices in place of names: the policy first, then the mode of the defaults
    file, then that of the data file. -/
def withChoices (s : Settings) : Except SettingFault (Uniqueness × LoadMode × LoadMode) := do
  return (← s.policy, ← s.defaultsMode, ← s.loadMode)

end Settings

end TypedStore
