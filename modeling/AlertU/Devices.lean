import AlertU.Config

/-! Input devices: the resolution of the remote and of the watched devices from a configuration and
a snapshot of the enumerated devices. -/

open FilePath Text

namespace AlertU

/-- A discovered input device with the traits the UI cares about. -/
structure DeviceEntry where
  path : PathBuf
  name : String
  isKeyboard : Bool
  isPointer : Bool
  deriving DecidableEq, Repr

structure InputDeviceInfo where
  path : PathBuf
  name : String
  isKeyboard : Bool
  isPointer : Bool
  deriving DecidableEq, Repr

def DeviceEntry.toInfo (e : DeviceEntry) : InputDeviceInfo :=
  ⟨e.path, e.name, e.isKeyboard, e.isPointer⟩

/-- The concrete devices to open. -/
structure Resolved where
  remote : Option PathBuf
  remoteName : Option String
  watch : List PathBuf
  deriving DecidableEq, Repr

namespace Devices

/-- Rust's `Some(p) == remote` on paths. -/
def isRemote (remote : Option PathBuf) (p : PathBuf) : Bool :=
  match remote with
  | some remote => p.same remote
  | none => false

/-- The first device whose name contains the hint, in lower case; an empty hint names none. -/
def findByHint (U : Unicode) (nameHint : String) (entries : List DeviceEntry) :
    Option DeviceEntry :=
  let hint := U.toLowercase (trim nameHint.toList)
  if hint = [] then none
  else entries.find? fun e => contains (U.toLowercase e.name.toList) hint

def resolveRemote (U : Unicode) (cfg : Config) (entries : List DeviceEntry) :
    Option PathBuf × Option String :=
  if cfg.remoteIsAuto then
    match findByHint U cfg.remoteNameHint entries with
    | some e => (some e.path, some e.name)
    | none => (none, none)
  else
    let path : PathBuf := ⟨cfg.remoteDevice⟩
    (some path, (entries.find? fun e => e.path.same path).map (·.name))

/-- Resolve the remote and watch-device paths from `cfg`. The remote is always excluded from the
watch set. -/
def resolve (U : Unicode) (cfg : Config) (entries : List DeviceEntry) : Resolved :=
  let (remote, remoteName) := resolveRemote U cfg entries
  let watch :=
    if cfg.watchIsAuto then
      (entries.filter fun e => !isRemote remote e.path && !e.isPointer).map (·.path)
    else (cfg.watchDevices.map PathBuf.mk).filter fun p => !isRemote remote p
  ⟨remote, remoteName, watch⟩

/-- The resolved remote is in no entry of the resolved watch set, whichever way the two were
configured. -/
theorem resolve_remote_notMem_watch (U : Unicode) (cfg : Config) (entries : List DeviceEntry)
    (p : PathBuf) (hp : p ∈ (resolve U cfg entries).watch) :
    isRemote (resolve U cfg entries).remote p = false := by
  simp only [resolve] at hp ⊢
  split_ifs at hp
  · obtain ⟨e, he, rfl⟩ := List.mem_map.mp hp
    have := (List.mem_filter.mp he).2
    simp only [Bool.and_eq_true, Bool.not_eq_true'] at this
    exact this.1
  · simpa using (List.mem_filter.mp hp).2

end Devices

end AlertU
