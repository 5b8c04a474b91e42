/-
  TypedStore/Config/File.lean
  ===========================
  **The settings file.**

  A settings file is TOML. Reading it takes the settings it mentions, leaves the others at their
  defaults and passes over everything else that is well formed; what it returns has been checked.
  Writing gives every setting a line. A file that is missing is made with the defaults and an
  explanation of each setting; one that is there is left alone.
-/
import TypedStore.Config.Settings
import TypedStore.Disk.Basic
import TypedStore.Toml.Document
import TypedStore.Toml.Writer

namespace TypedStore

inductive ConfigFault where
  | unreadable (path : Path) (fault : DiskFault)
  /-- The bytes of the file are not UTF-8. -/
  | notText (path : Path)
  | unwritable (path : Path) (fault : DiskFault)
  /-- The file is not TOML, or a setting has a value of the wrong type. -/
  | notToml (path : Path)
  | setting (fault : SettingFault)
  /-- TOML has no number for a setting. -/
  | noNumber
deriving DecidableEq, Repr

def ConfigFault.message : ConfigFault → String
  | .unreadable path fault =>
    "Failed to read config file '" ++ path.text ++ "': " ++ fault.message
  | .notText path =>
    "Failed to read config file '" ++ path.text ++ "': stream did not contain valid UTF-8"
  | .unwritable path fault =>
    "Failed to write config file '" ++ path.text ++ "': " ++ fault.message
  | .notToml path => "Failed to parse config file '" ++ path.text ++ "': <toml>"
  | .setting fault => fault.message
  | .noNumber => "Failed to serialize config: <toml>"

namespace Settings

/-- The name of the settings file in a store's directory. -/
def fileName : String := "tagkv.toml"

/-! ### Text -/

/-- The string that a key of a document stands for, if the document has the key. -/
def stringAt? (key : String) (default : String) (document : Toml.Entries) : Option String :=
  match Json.find? key document with
  | none => some default
  | some (.string s) => some s
  | some _ => none

/-- The natural number that a key of a document stands for, if the document has the key. -/
def numberAt? (key : String) (default : Nat) (document : Toml.Entries) : Option Nat :=
  match Json.find? key document with
  | none => some default
  | some (.scalar (.integer n)) => if 0 ≤ n then some n.toNat else none
  | some _ => none

/-- The settings that a document mentions, the others at their defaults. -/
def ofDocument? (document : Toml.Entries) : Option Settings := do
  let base : Settings := {}
  return {
    uniqueness := ← stringAt? "uniqueness" base.uniqueness document
    instanceId := ← numberAt? "instance_id" base.instanceId document
    maxKeyBytes := ← numberAt? "max_key_bytes" base.maxKeyBytes document
    maxValueBytes := ← numberAt? "max_value_bytes" base.maxValueBytes document
    snapshotMaxCount := ← numberAt? "snapshot_max_count" base.snapshotMaxCount document
    defaults := ← stringAt? "defaults" base.defaults document
    kvsLoad := ← stringAt? "kvs_load" base.kvsLoad document }

/-- The settings that a text writes; the path is for error messages. -/
def parse (path : Path) (text : String) : Except ConfigFault Settings :=
  match (Toml.documentOf? text).bind ofDocument? with
  | none => .error (.notToml path)
  | some settings =>
    match settings.check with
    | .ok () => .ok settings
    | .error fault => .error (.setting fault)

/-- The text that writes the settings, if TOML has numbers for them. -/
def write? (s : Settings) : Option String := do
  let lines := [
    some (Toml.stringLine "uniqueness" s.uniqueness),
    Toml.integerLine? "instance_id" s.instanceId,
    Toml.integerLine? "max_key_bytes" s.maxKeyBytes,
    Toml.integerLine? "max_value_bytes" s.maxValueBytes,
    Toml.integerLine? "snapshot_max_count" s.snapshotMaxCount,
    some (Toml.stringLine "defaults" s.defaults),
    some (Toml.stringLine "kvs_load" s.kvsLoad)]
  return String.ofList (← lines.mapM id).flatten

/-- The text of a settings file that is made because there is none. -/
def defaultText : String := "# tagkv store configuration
#
# Uniqueness policy for put on an existing key: \"reject\" (default) or \"overwrite\"
#   \"reject\"    = put fails with DuplicateKey, stored value is kept
#   \"overwrite\" = put replaces the stored value
uniqueness = \"reject\"

# Instance id: selects kvs_<instance_id>_<n>.json and kvs_<instance_id>_<n>.hash,
# so several stores can share one directory (default: 0)
instance_id = 0

# Maximum key length in bytes (default: 32)
max_key_bytes = 32

# Maximum value length in bytes (default: 1024)
# Strings are measured by their UTF-8 bytes, everything else by the
# compact JSON of its payload.
max_value_bytes = 1024

# Generations of the data file kept on disk, the current one included
# (default: 3). Every write shifts the older generations up by one.
snapshot_max_count = 3

# Defaults file kvs_<instance_id>_default.json (default: \"optional\")
#   \"ignored\"  = never read
#   \"optional\" = read if present
#   \"required\" = opening fails without it
defaults = \"optional\"

# Existing data file, same choices as defaults (default: \"optional\")
kvs_load = \"optional\"
"

/-! ### File -/

def ofFile (path : Path) (disk : Disk) : Except ConfigFault Settings :=
  match disk.read path with
  | .error fault => .error (.unreadable path fault)
  | .ok bytes =>
    match Utf8.decode bytes with
    | .error _ => .error (.notText path)
    | .ok text => parse path text

def toFile (path : Path) (s : Settings) (disk : Disk) : Except ConfigFault Disk :=
  match s.write? with
  | none => .error .noNumber
  | some text => (disk.write path (Utf8.encode text)).mapError (.unwritable path)

/-- Make a settings file with the defaults, unless something is there. -/
def makeFile (path : Path) (disk : Disk) : Except ConfigFault Disk :=
  if disk.contains path then .ok disk
  else (disk.write path (Utf8.encode defaultText)).mapError (.unwritable path)

example : ofDocument? [] = some {} := rfl
example : ofDocument? [("instance_id", .scalar (.integer 7)), ("other", .string "")] =
    some { instanceId := 7 } := by decide +kernel
example : ofDocument? [("instance_id", .scalar (.integer (-7)))] = none := by decide +kernel

end Settings

end TypedStore
