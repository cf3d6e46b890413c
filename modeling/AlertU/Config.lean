import AlertU.FileSystem
import AlertU.Text
import AlertU.Timing

/-! The daemon configuration: its fields and defaults, its validation, its file, and the change that
pairing a remote makes to it. -/

open FilePath

namespace AlertU

/-- Sentinel value meaning "let the daemon pick automatically". -/
def AUTO : String := "auto"

/-- A name spelled `auto` in any case. -/
def isAuto (text : String) : Bool := Text.eqIgnoreAsciiCase text.toList AUTO.toList

theorem isAuto_AUTO : isAuto AUTO := by decide

/-- The wildcard is no absolute path. -/
theorem not_isAuto_of_isAbsolute {path : PathBuf} (h : path.isAbsolute) : ¬isAuto path.raw := by
  intro hauto
  have hlower : path.raw.toList.map Char.toLower = AUTO.toList.map Char.toLower := by
    simpa [isAuto, Text.eqIgnoreAsciiCase] using hauto
  have hsep : '/' ∉ path.raw.toList := by
    intro hmem
    have hlow : Char.toLower '/' ∈ AUTO.toList.map Char.toLower := by
      rw [← hlower]
      exact List.mem_map_of_mem hmem
    exact absurd hlow (by decide)
  have hsegments : path.segments = [path.raw.toList] := List.splitOn_eq_singleton hsep
  have hne : path.raw.toList ≠ [] := by
    intro hnil
    rw [hnil] at hlower
    cases hlower
  have hdot : path.raw.toList ≠ ['.'] := by
    intro hnil
    rw [hnil] at hlower
    exact absurd hlower (by decide)
  rw [PathBuf.isAbsolute, components_eq hsegments, headComponent?, if_neg hne, if_neg hdot,
    component?] at h
  simp only [hne, hdot, or_self, if_false, List.filterMap_nil, List.append_nil] at h
  split_ifs at h <;> cases h

structure Config where
  remoteDevice : String
  remoteNameHint : String
  toggleKeys : List String
  watchDevices : List String
  gracePeriodSecs : UInt64
  alarmDelaySecs : UInt64
  beepSound : PathBuf
  warningSound : PathBuf
  sirenSound : PathBuf
  alsaDevice : String
  snapshotDir : PathBuf
  cameraDevice : String
  sessionId : String
  alarmWebhookUrl : String
  deriving DecidableEq, Repr

namespace Config

/-- `Config::default`. -/
def default : Config where
  remoteDevice := AUTO
  remoteNameHint := ""
  toggleKeys := ["KEY_VOLUMEUP"]
  watchDevices := [AUTO]
  gracePeriodSecs := 15
  alarmDelaySecs := 10
  beepSound := ⟨"/usr/share/sounds/alertu/beep.wav"⟩
  warningSound := ⟨"/usr/share/sounds/alertu/warning.wav"⟩
  sirenSound := ⟨"/usr/share/sounds/alertu/siren.wav"⟩
  alsaDevice := ""
  snapshotDir := ⟨"/var/lib/alertu/snapshots"⟩
  cameraDevice := "/dev/video0"
  sessionId := AUTO
  alarmWebhookUrl := ""

def remoteIsAuto (cfg : Config) : Bool := isAuto cfg.remoteDevice

def watchIsAuto (cfg : Config) : Bool :=
  match cfg.watchDevices with
  | [only] => isAuto only
  | _ => false

def sessionIsAuto (cfg : Config) : Bool := isAuto cfg.sessionId

/-- Basic sanity validation of user-provided values. -/
def validate (cfg : Config) : Except String Unit :=
  if cfg.toggleKeys.isEmpty then
    .error "`toggle_keys` must list at least one evdev key name"
  else if cfg.watchDevices.isEmpty then
    .error "`watch_devices` must be `[\"auto\"]` or a list of device paths"
  else .ok ()

theorem validate_default : default.validate = .ok () := rfl

theorem validate_eq_ok_iff (cfg : Config) :
    cfg.validate = .ok () ↔ cfg.toggleKeys ≠ [] ∧ cfg.watchDevices ≠ [] := by
  unfold validate
  split_ifs with hkeys hwatch
  · simp [List.isEmpty_iff.mp hkeys]
  · simp [List.isEmpty_iff.mp hwatch]
  · simp [List.isEmpty_iff] at hkeys hwatch
    simp [hkeys, hwatch]

/-- Point this config at a remote learned by pressing its button: by name, or by path when the
kernel reports no usable name. -/
def applyLearnedRemote (cfg : Config) (path : PathBuf) (name key : String) : Config :=
  let hint := Text.trim name.toList
  if hint = [] ∨ hint = "?".toList ∨ hint = "<unnamed>".toList then
    { cfg with remoteDevice := path.raw, toggleKeys := [key] }
  else
    { cfg with
      remoteDevice := AUTO
      remoteNameHint := String.ofList hint
      toggleKeys := [key] }

end Config

/-! ### The file -/

/-- The `toml` crate on configurations: it reads back every configuration it serializes. -/
structure Toml where
  toStringPretty : Config → Option String
  fromStr : String → Option Config
  round_trip : ∀ cfg text, toStringPretty cfg = some text → fromStr text = some cfg

namespace Config

/-- Load from `path`. A missing file yields the defaults. -/
def load (toml : Toml) (disk : Disk) (fs : FileSystem) (path : PathBuf) : Except String Config :=
  match fs.readToString disk path with
  | .text text =>
      match toml.fromStr text with
      | some cfg => .ok cfg
      | none => .error s!"parsing config {path.raw}"
  | .notFound => .ok default
  | .failed _ => .error s!"reading config {path.raw}"

/-- The first step of `save`: create the parent directory, unless it is the current one. -/
def createParent (disk : Disk) (path : PathBuf) : Except String Unit :=
  match path.parent with
  | some parent =>
      if parent.raw ≠ "" ∧ disk.mkdirFails then .error s!"creating config dir {parent.raw}"
      else .ok ()
  | none => .ok ()

/-- Serialize and atomically write to `path`, creating parent directories. -/
def save (toml : Toml) (disk : Disk) (fs : FileSystem) (path : PathBuf) (cfg : Config) :
    Except String Unit × FileSystem :=
  match createParent disk path with
  | .error error => (.error error, fs)
  | .ok () =>
      match toml.toStringPretty cfg with
      | none => (.error "serializing config", fs)
      | some text =>
          let tmp := path.withExtension "toml.tmp"
          match fs.write disk tmp text with
          | (false, fs) => (.error s!"writing {tmp.raw}", fs)
          | (true, fs) =>
              match fs.rename disk tmp path with
              | (false, fs) => (.error s!"replacing {path.raw}", fs)
              | (true, fs) => (.ok (), fs)

variable {toml : Toml} {disk : Disk} {fs fs' : FileSystem} {path : PathBuf} {cfg : Config}

/-- Writing the temporary file never touches the configuration file: either the path has a file
name, and then the temporary file has another one, or the write is refused. -/
theorem lookup_write_tmp (fs : FileSystem) (disk : Disk) (path : PathBuf) (text : String) :
    (fs.write disk (path.withExtension "toml.tmp") text).2.lookup path = fs.lookup path := by
  cases hname : path.fileName with
  | none =>
      have htmp : path.withExtension "toml.tmp" = path := by rw [PathBuf.withExtension, hname]
      rw [htmp, FileSystem.write, hname]
  | some name =>
      exact FileSystem.lookup_write_of_ne _ _ _ (withExtension_components_ne hname).symm

/-- A save that fails leaves the configuration file as it was. -/
theorem lookup_of_save_error {error : String}
    (h : save toml disk fs path cfg = (.error error, fs')) : fs'.lookup path = fs.lookup path := by
  unfold save at h
  cases hparent : createParent disk path with
  | error e =>
      rw [hparent] at h
      cases h
      rfl
  | ok _ =>
      rw [hparent] at h
      cases htext : toml.toStringPretty cfg with
      | none =>
          rw [htext] at h
          cases h
          rfl
      | some text =>
          rw [htext] at h
          have htmp := lookup_write_tmp fs disk path text
          rcases hwrite : fs.write disk (path.withExtension "toml.tmp") text with ⟨written, fs₁⟩
          rw [hwrite] at htmp
          simp only [hwrite] at h
          cases written with
          | false =>
              cases h
              exact htmp
          | true =>
              rcases hrename : fs₁.rename disk (path.withExtension "toml.tmp") path with
                ⟨renamed, fs₂⟩
              simp only [hrename] at h
              cases renamed with
              | true => cases h
              | false =>
                  cases h
                  rw [FileSystem.eq_of_rename_failed hrename]
                  exact htmp

/-- A save succeeds when each of its steps does. -/
theorem save_eq_ok_iff : save toml disk fs path cfg = (.ok (), fs') ↔
    ∃ text fs₁, createParent disk path = .ok () ∧ toml.toStringPretty cfg = some text ∧
      fs.write disk (path.withExtension "toml.tmp") text = (true, fs₁) ∧
      fs₁.rename disk (path.withExtension "toml.tmp") path = (true, fs') := by
  constructor
  · intro h
    unfold save at h
    split at h
    · cases h
    · rename_i hparent
      split at h
      · cases h
      · rename_i text htext
        simp only at h
        split at h
        · cases h
        · rename_i fs₁ hwrite
          split at h
          · cases h
          · rename_i fs₂ hrename
            cases h
            exact ⟨text, fs₁, hparent, htext, hwrite, hrename⟩
  · rintro ⟨text, fs₁, hparent, htext, hwrite, hrename⟩
    simp only [save, hparent, htext, hwrite, hrename]

/-- After a save that succeeds, the file holds the text of the configuration. -/
theorem lookup_of_save_ok (h : save toml disk fs path cfg = (.ok (), fs')) :
    ∃ text, toml.toStringPretty cfg = some text ∧ fs'.lookup path = some text := by
  obtain ⟨text, fs₁, -, htext, hwrite, hrename⟩ := save_eq_ok_iff.mp h
  obtain ⟨htmp, hname⟩ := FileSystem.lookup_of_write hwrite
  refine ⟨text, htext, ?_⟩
  cases hfile : path.fileName with
  | none =>
      rw [PathBuf.withExtension, hfile] at hname
      exact absurd hfile hname
  | some name =>
      rw [FileSystem.lookup_of_rename (withExtension_components_ne hfile).symm hrename]
      exact htmp

end Config

end AlertU
