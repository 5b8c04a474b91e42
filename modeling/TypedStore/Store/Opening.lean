/-
  TypedStore/Store/Opening.lean
  =============================
  **Opening stores.**

  A store on any medium needs settings that can be used. A store on files goes through more steps:
  the settings, the defaults file, the data file, and the check that every default could be
  stored. Each step may end the opening; none changes a file. `openDirectory` takes the settings
  from the directory itself, and makes a settings file there if it has none.
-/
import TypedStore.Store.Defaults

namespace TypedStore.Store

variable {σ τ : Type}

/-- A store on a medium with the rules that the settings give. -/
def build (medium : Medium σ) (snapshots : Option (Snapshots σ)) (settings : Settings) :
    Op OpenFault τ (Store σ) := do
  let policy ← Op.ofExcept do
    (settings.check).mapError fun e => OpenFault.config (.setting e)
    settings.policy.mapError fun e => OpenFault.config (.setting e)
  let limits := settings.limits
  Op.report (.openedStore policy settings.instanceId limits.maxKeyBytes limits.maxValueBytes)
  return { medium, snapshots, policy, limits, defaults := .empty }

/-- A store on a medium that keeps no earlier generations. -/
def ofMedium (medium : Medium σ) (settings : Settings) : Op OpenFault τ (Store σ) :=
  build medium none settings

/-- The entries of a defaults file as values, in the order of their keys. -/
def decodeDefaults (entries : Json.RawObject) : Except OpenFault (List (String × Value)) :=
  entries.toList.mapM fun entry =>
    match Value.decodeBytes entry.2.bytes with
    | .ok value => .ok (entry.1, value)
    | .error fault => .error (.corruptDefault entry.1 fault)

def readDefaults (files : FileSet) (mode : LoadMode) :
    Op OpenFault Disk (List (String × Value)) := do
  if mode = .ignored then return []
  match ← files.readDefaults.mapError .storage with
  | some entries => Op.ofExcept (decodeDefaults entries)
  | none => if mode = .required then throw (.defaultsMissing files.defaults) else return []

/-- Open the store in a directory with given settings. -/
def openWith (dir : Path) (settings : Settings) :
    Op OpenFault Disk (Store Mounted × Archive) := do
  Op.ofExcept (settings.check.mapError fun e => .config (.setting e))
  let files : FileSet := ⟨dir, settings.instanceId⟩
  let mode ← Op.ofExcept (settings.defaultsMode.mapError fun e => OpenFault.config (.setting e))
  let defaults ← readDefaults files mode
  let mode ← Op.ofExcept (settings.loadMode.mapError fun e => OpenFault.config (.setting e))
  let archive ← (Archive.load files ⟨mode, settings.snapshotMaxCount⟩).mapError .storage
  let store ← build Archive.medium (some Archive.snapshots) settings
  let store ← Op.ofExcept (store.withDefaults defaults)
  return (store, archive)

/-- Open the store in a directory with the settings of the directory. -/
def openDirectory (dir : Path) : Op OpenFault Disk (Store Mounted × Archive) := do
  (Op.step fun disk => disk.makeDirectories dir).mapError fun e => .storage (.disk e)
  let path := dir.child Settings.fileName
  Op.change fun disk => (Settings.makeFile path disk).mapError .config
  let settings ← Op.look fun disk => (Settings.ofFile path disk).mapError .config
  openWith dir settings

end TypedStore.Store
