import AlertU.Devices
import AlertU.TextFields

/-! The settings window: the working copy of the configuration, the text buffers beside it, and what
saving makes of them. The list of keys is edited as one text, and so are the four paths. -/

open FilePath Text

namespace AlertU

/-- The window's state, with the configurations that it has sent to the daemon. -/
structure SettingsApp where
  cfg : Config
  devices : List InputDeviceInfo
  status : String
  beepBuf : String
  warningBuf : String
  sirenBuf : String
  snapshotBuf : String
  toggleKeysBuf : String
  sent : List Config
  deriving DecidableEq, Repr

/-- How the daemon answers a window that is connected to it. -/
structure SettingsClient where
  setConfig : Config → Except String Unit
  testSound : Except String Unit

/-- The number fields of the toolkit: a value that is shown is clamped to the range of its field, which
leaves a value of the range alone. -/
structure DragValue where
  shown : (lo hi value : UInt64) → UInt64
  within : ∀ lo hi value, lo ≤ value → value ≤ hi → shown lo hi value = value

namespace SettingsApp

variable (drag : DragValue) (client : Option SettingsClient) (app : SettingsApp)

/-- Fill the string buffers from the current config. -/
def loadBuffers : SettingsApp :=
  { app with
    beepBuf := app.cfg.beepSound.raw
    warningBuf := app.cfg.warningSound.raw
    sirenBuf := app.cfg.sirenSound.raw
    snapshotBuf := app.cfg.snapshotDir.raw
    toggleKeysBuf := ", ".intercalate app.cfg.toggleKeys }

def trimText (text : String) : String := String.ofList (trim text.toList)

/-- Assemble a Config from the working copy and the buffers. -/
def collect : Config :=
  { app.cfg with
    beepSound := ⟨trimText app.beepBuf⟩
    warningSound := ⟨trimText app.warningBuf⟩
    sirenSound := ⟨trimText app.sirenBuf⟩
    snapshotDir := ⟨trimText app.snapshotBuf⟩
    toggleKeys := (fields app.toggleKeysBuf.toList).map String.ofList }

/-- Validate and push the config to the daemon. -/
def save : Bool × SettingsApp :=
  let cfg := app.collect
  match cfg.validate with
  | .error e => (false, { app with status := s!"Invalid: {e}" })
  | .ok () =>
      match client with
      | none => (false, { app with status := "Not connected." })
      | some client =>
          let app := { app with sent := app.sent ++ [cfg] }
          match client.setConfig cfg with
          | .ok () => (true, { app with cfg, status := "Saved and applied." })
          | .error e => (false, { app with status := s!"Save failed: {e}" })

/-- Ask the daemon to play its beep, saving first. -/
def testSound : SettingsApp :=
  let (saved, app) := app.save client
  if !saved then app
  else
    match client with
    | none => { app with status := "Not connected." }
    | some client =>
        match client.testSound with
        | .ok () =>
            { app with
              status := "Beep sent. Silence means the output is wrong — " ++
                "`journalctl -u alertu-daemon` says why." }
        | .error e => { app with status := s!"Test failed: {e}" }

/-- A remote that pairing has learned is saved as it lands. -/
def paired (path : PathBuf) (name key : String) : SettingsApp :=
  let app := { app with cfg := app.cfg.applyLearnedRemote path name key }
  let (saved, app) := app.loadBuffers.save client
  if saved then { app with status := s!"Paired {name} ({key})." } else app

/-- What the daemon has is shown. -/
def loaded (cfg : Config) (devices : List InputDeviceInfo) : SettingsApp :=
  { app with cfg, devices, status := "Loaded config from daemon." }.loadBuffers

/-- A frame in which the user touches nothing: it shows the two delays. -/
def frame : SettingsApp :=
  { app with cfg := { app.cfg with
      gracePeriodSecs := drag.shown 0 3600 app.cfg.gracePeriodSecs
      alarmDelaySecs := drag.shown 1 3600 app.cfg.alarmDelaySecs } }

def frames : ℕ → SettingsApp → SettingsApp
  | 0, app => app
  | n + 1, app => frames n (app.frame drag)

/-! ### The way through the form -/

end SettingsApp

/-- What the form gives back as it is: keys without commas, and no white space around keys and paths. -/
structure Config.FitsForm (cfg : Config) : Prop where
  toggleKeys : ∀ key ∈ cfg.toggleKeys, isField key.toList
  paths : ∀ path ∈ [cfg.beepSound, cfg.warningSound, cfg.sirenSound, cfg.snapshotDir],
    trim path.raw.toList = path.raw.toList

/-- The delays that their number fields can show. -/
def Config.InRange (cfg : Config) : Prop :=
  cfg.gracePeriodSecs ≤ 3600 ∧ 1 ≤ cfg.alarmDelaySecs ∧ cfg.alarmDelaySecs ≤ 3600

namespace SettingsApp

variable {drag : DragValue} {client : SettingsClient} {app : SettingsApp} {cfg : Config}

theorem trimText_eq_iff (path : PathBuf) :
    (⟨trimText path.raw⟩ : PathBuf) = path ↔ trim path.raw.toList = path.raw.toList := by
  obtain ⟨raw⟩ := path
  rw [PathBuf.mk.injEq, trimText, ← String.toList_inj, String.toList_ofList]

theorem map_toList_ofList (names : List (List Char)) :
    (names.map String.ofList).map String.toList = names := by
  simp [Function.comp_def]

theorem fields_intercalate (names : List String) :
    (fields (", ".intercalate names).toList).map String.ofList = names ↔
      ∀ name ∈ names, isField name.toList := by
  have hjoined : (", ".intercalate names).toList = joined (names.map String.toList) :=
    String.toList_intercalate
  rw [hjoined, ← List.forall_mem_map (f := String.toList) (P := fun name => isField name = true),
    ← fields_joined_eq_iff]
  constructor
  · intro h
    rw [← map_toList_ofList (fields _), h]
  · intro h
    rw [h]
    simp [Function.comp_def]

/-- Loading the buffers and collecting them again gives the same configuration exactly when it fits the
form. -/
theorem collect_loadBuffers_iff : app.loadBuffers.collect = app.cfg ↔ app.cfg.FitsForm := by
  have hpaths : (∀ path ∈ [app.cfg.beepSound, app.cfg.warningSound, app.cfg.sirenSound,
      app.cfg.snapshotDir], trim path.raw.toList = path.raw.toList) ↔
      trim app.cfg.beepSound.raw.toList = app.cfg.beepSound.raw.toList ∧
      trim app.cfg.warningSound.raw.toList = app.cfg.warningSound.raw.toList ∧
      trim app.cfg.sirenSound.raw.toList = app.cfg.sirenSound.raw.toList ∧
      trim app.cfg.snapshotDir.raw.toList = app.cfg.snapshotDir.raw.toList := by
    simp
  simp only [← trimText_eq_iff] at hpaths
  constructor
  · intro h
    have hkeys := congrArg Config.toggleKeys h
    have hbeep := congrArg Config.beepSound h
    have hwarning := congrArg Config.warningSound h
    have hsiren := congrArg Config.sirenSound h
    have hsnapshot := congrArg Config.snapshotDir h
    exact ⟨(fields_intercalate _).mp hkeys,
      fun path hpath => (trimText_eq_iff path).mp
        (hpaths.mpr ⟨hbeep, hwarning, hsiren, hsnapshot⟩ path hpath)⟩
  · intro h
    obtain ⟨hbeep, hwarning, hsiren, hsnapshot⟩ := hpaths.mp fun path hpath =>
      (trimText_eq_iff path).mpr (h.paths path hpath)
    have hkeys := (fields_intercalate _).mpr h.toggleKeys
    simp only [collect, loadBuffers, hbeep, hwarning, hsiren, hsnapshot, hkeys]

theorem frame_of_inRange (h : app.cfg.InRange) : app.frame drag = app := by
  have hgrace := drag.within 0 3600 _ (UInt64.zero_le) h.1
  have halarm := drag.within 1 3600 _ h.2.1 h.2.2
  simp only [frame, hgrace, halarm]

theorem frames_of_inRange (h : app.cfg.InRange) (n : ℕ) : frames drag n app = app := by
  induction n with
  | zero => rfl
  | succ n ih => rw [frames, frame_of_inRange h, ih]

/-- Saving a valid configuration sends what has been collected. -/
theorem save_sent (h : app.collect.validate = .ok ()) :
    (app.save (some client)).2.sent = app.sent ++ [app.collect] := by
  simp only [save, h]
  cases client.setConfig app.collect <;> rfl

theorem testSound_sent : (app.testSound (some client)).sent = (app.save (some client)).2.sent := by
  rw [testSound]
  rcases app.save (some client) with ⟨saved, app'⟩
  cases saved with
  | false => rfl
  | true =>
      dsimp only [Bool.not_true]
      cases client.testSound <;> rfl

theorem paired_sent {path : PathBuf} {name key : String} :
    (app.paired (some client) path name key).sent =
      (({ app with cfg := app.cfg.applyLearnedRemote path name key }).loadBuffers.save
        (some client)).2.sent := by
  rw [paired]
  generalize save (some client) _ = result
  obtain ⟨saved, app'⟩ := result
  cases saved <;> rfl

/-- Pairing writes the remote and its key, and leaves all else in the configuration. -/
theorem applyLearnedRemote_eq (cfg : Config) (path : PathBuf) (name key : String) :
    ∃ remote hint, cfg.applyLearnedRemote path name key =
      { cfg with remoteDevice := remote, remoteNameHint := hint, toggleKeys := [key] } := by
  unfold Config.applyLearnedRemote
  simp only
  split_ifs
  · exact ⟨path.raw, cfg.remoteNameHint, rfl⟩
  · exact ⟨AUTO, _, rfl⟩

/-- A configuration goes through the form unchanged exactly when it fits. When its delays are in the
range of their fields as well, then Save and Test send it as it was loaded, whatever the number of frames
in between, and pairing changes nothing but the remote and the keys. -/
theorem window_keeps_config (drag : DragValue) (client : SettingsClient) (app : SettingsApp)
    (cfg : Config) (devices : List InputDeviceInfo) (hvalid : cfg.validate = .ok ()) :
    ((app.loaded cfg devices).collect = cfg ↔ cfg.FitsForm) ∧
    (cfg.FitsForm → cfg.InRange → ∀ n opened, opened = frames drag n (app.loaded cfg devices) →
      (opened.save (some client)).2.sent = app.sent ++ [cfg] ∧
      (opened.testSound (some client)).sent = app.sent ++ [cfg] ∧
      ∀ path name key, isField key.toList → (opened.paired (some client) path name key).sent =
        app.sent ++ [cfg.applyLearnedRemote path name key]) := by
  have hcollect : (app.loaded cfg devices).collect = cfg ↔ cfg.FitsForm :=
    collect_loadBuffers_iff
  refine ⟨hcollect, fun hfits hrange n opened hopened => ?_⟩
  have hsame : opened = app.loaded cfg devices := by
    rw [hopened]
    exact frames_of_inRange hrange n
  have hsave : (opened.save (some client)).2.sent = app.sent ++ [cfg] := by
    have hcfg := hcollect.mpr hfits
    rw [hsame, save_sent (by rw [hcfg, hvalid]), hcfg]
    rfl
  refine ⟨hsave, testSound_sent.trans hsave, fun path name key hkey => ?_⟩
  obtain ⟨remote, hint, hlearned⟩ := applyLearnedRemote_eq cfg path name key
  have hcfg : opened.cfg = cfg := by
    rw [hsame]
    rfl
  rw [paired_sent, hcfg, hlearned]
  let learned := { cfg with remoteDevice := remote, remoteNameHint := hint, toggleKeys := [key] }
  have hpaired : { opened with cfg := learned }.loadBuffers.collect = learned :=
    collect_loadBuffers_iff.mpr ⟨List.forall_mem_singleton.mpr hkey, hfits.paths⟩
  have hwatch := ((Config.validate_eq_ok_iff cfg).mp hvalid).2
  rw [save_sent (by rw [hpaired]; exact (Config.validate_eq_ok_iff _).mpr ⟨List.cons_ne_nil _ _, hwatch⟩),
    hpaired, hsame]
  rfl

/-- A number field that clamps what it shows. -/
def clamping : DragValue where
  shown lo hi value := if value < lo then lo else if hi < value then hi else value
  within lo hi value hlo hhi := by
    rw [if_neg (UInt64.not_lt.mpr hlo), if_neg (UInt64.not_lt.mpr hhi)]

def agreeing : SettingsClient := ⟨fun _ => .ok (), .ok ()⟩

/-- The window before it has connected. -/
def new : SettingsApp := ⟨.default, [], "", "", "", "", "", "", []⟩

theorem window_keeps_config_default :
    ((frames clamping 1 (new.loaded .default [])).save (some agreeing)).2.sent = [.default] :=
  ((window_keeps_config clamping agreeing new .default [] rfl).2 (by
    refine ⟨?_, ?_⟩ <;> decide +kernel) (by rw [Config.InRange]; decide) 1 _ rfl).1

/-- A valid configuration whose only key name has a comma comes back with two names. -/
theorem comma_splits_key :
    ¬∀ cfg : Config, cfg.validate = .ok () → ∀ (app : SettingsApp) (devices : List InputDeviceInfo),
      (app.loaded cfg devices).collect = cfg := by
  intro h
  have hkeys := congrArg Config.toggleKeys
    (h { Config.default with toggleKeys := ["KEY_A,KEY_B"] } rfl new [])
  revert hkeys
  decide +kernel

end SettingsApp

end AlertU
