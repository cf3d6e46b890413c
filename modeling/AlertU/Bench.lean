import AlertU.Machine
import Mathlib.Data.List.Nodup

/-! Platforms on which runs of the daemon can be executed by evaluation. The `toml` and `evdev`
crates are given by finite tables, and any table without repetitions meets what is assumed of the
crate; the bench platform has a clock that advances by one second with each reading. -/

open FilePath Timing

namespace AlertU

section Tables

variable {α : Type} {table : List α} {text : α → String}

theorem find?_text (hdistinct : (table.map text).Nodup) {a : α} (hmem : a ∈ table) :
    table.find? (fun b => text b = text a) = some a := by
  cases hfind : table.find? (fun b => text b = text a) with
  | none =>
      have := List.find?_eq_none.mp hfind a hmem
      simp at this
  | some b =>
      have hb := List.find?_some hfind
      have hsame := List.inj_on_of_nodup_map hdistinct (List.mem_of_find?_eq_some hfind) hmem
        (by simpa using hb)
      rw [hsame]

end Tables

/-- A `toml` crate that can write the listed configurations. -/
def Toml.ofConfigs (configs : List Config) (text : Config → String)
    (hdistinct : (configs.map text).Nodup) : Toml where
  toStringPretty cfg := if cfg ∈ configs then some (text cfg) else none
  fromStr written := configs.find? fun cfg => text cfg = written
  round_trip cfg written h := by
    split_ifs at h with hmem
    cases h
    exact find?_text hdistinct hmem

/-- An `evdev` crate that knows the listed keys. -/
def Evdev.ofKeys (keys : List (KeyCode × String)) (hdistinct : (keys.map (·.2)).Nodup)
    (hident : ∀ key ∈ keys, ' ' ∉ key.2.toList) : Evdev where
  name code := (keys.find? fun key => key.1 = code).map (·.2)
  fromStr text := (keys.find? fun key => key.2 = text).map (·.1)
  fromStr_name code text h := by
    obtain ⟨key, hkey, rfl⟩ := Option.map_eq_some_iff.mp h
    have hcode := List.find?_some hkey
    rw [find?_text hdistinct (List.mem_of_find?_eq_some hkey)]
    simpa using hcode
  identifier text code h := by
    obtain ⟨key, hkey, -⟩ := Option.map_eq_some_iff.mp h
    have htext := List.find?_some hkey
    rw [decide_eq_true_eq] at htext
    rw [← htext]
    exact hident key (List.mem_of_find?_eq_some hkey)

namespace Bench

def quoted (text : String) : String := "\"" ++ text ++ "\""

def arrayText : List String → String
  | [only] => "[" ++ quoted only ++ "]"
  | texts => "[\n" ++ String.join (texts.map fun text => "    " ++ quoted text ++ ",\n") ++ "]"

/-- The file text of a configuration whose strings need no escapes. -/
def text (cfg : Config) : String :=
  String.join
    ["remote_device = ", quoted cfg.remoteDevice, "\nremote_name_hint = ", quoted cfg.remoteNameHint,
      "\ntoggle_keys = ", arrayText cfg.toggleKeys, "\nwatch_devices = ", arrayText cfg.watchDevices,
      "\ngrace_period_secs = ", toString cfg.gracePeriodSecs,
      "\nalarm_delay_secs = ", toString cfg.alarmDelaySecs,
      "\nbeep_sound = ", quoted cfg.beepSound.raw, "\nwarning_sound = ", quoted cfg.warningSound.raw,
      "\nsiren_sound = ", quoted cfg.sirenSound.raw, "\nalsa_device = ", quoted cfg.alsaDevice,
      "\nsnapshot_dir = ", quoted cfg.snapshotDir.raw, "\ncamera_device = ", quoted cfg.cameraDevice,
      "\nsession_id = ", quoted cfg.sessionId,
      "\nalarm_webhook_url = ", quoted cfg.alarmWebhookUrl, "\n"]

/-- No delays at all. -/
def prompt : Config := { Config.default with gracePeriodSecs := 0, alarmDelaySecs := 0 }

/-- The largest grace period that the configuration file can hold. -/
def patient : Config := { Config.default with gracePeriodSecs := 9223372036854775807 }

/-- No grace period, and the longest countdown. -/
def endless : Config := { prompt with alarmDelaySecs := 9223372036854775807 }

def onSession (id : String) : Config := { Config.default with sessionId := id }

def shutter : Config := Config.default.applyLearnedRemote ⟨"/dev/input/event5"⟩ "AB Shutter" "KEY_ENTER"

def toml : Toml :=
  .ofConfigs [.default, prompt, patient, endless, onSession "3", onSession "7", shutter] text
    (by decide +kernel)

def evdev : Evdev :=
  .ofKeys [(28, "KEY_ENTER"), (115, "KEY_VOLUMEUP"), (353, "KEY_SELECT")] (by decide) (by decide)

/-- The reading of `clock` in seconds. -/
def secondsAt (n : ℕ) : ℕ := min n 999 + 1

theorem secondsAt_fits (n : ℕ) : secondsAt n * nanosPerSec / nanosPerSec < 2 ^ 63 := by
  rw [Nat.mul_div_cancel _ (by decide), secondsAt]
  omega

theorem secondsAt_mono {m n : ℕ} (h : m ≤ n) :
    secondsAt m * nanosPerSec ≤ secondsAt n * nanosPerSec := by
  refine Nat.mul_le_mul_right _ ?_
  unfold secondsAt
  omega

theorem secondsAt_ktime (n : ℕ) : secondsAt n * nanosPerSec < 2 ^ 63 := by
  rw [secondsAt, nanosPerSec]
  omega

/-- One second at the first reading, one more at each later one, up to a thousand. -/
def clock : Clock where
  read n := ⟨secondsAt n * nanosPerSec, secondsAt_fits n⟩
  mono _ _ h := secondsAt_mono h
  ktime := secondsAt_ktime

def platform : Platform := ⟨clock, toml, evdev, Text.ascii⟩

/-- A `loginctl` that runs every command and names `active` as the session on `seat0`. -/
def loginctl (active : String) : Loginctl where
  showSeat := some ⟨true, active ++ "\n"⟩
  listSessions := some ⟨true, active ++ " 1000 user seat0 tty2\n"⟩
  action := some ⟨true, ""⟩
  showSession := some ⟨true, "no\n"⟩

/-- A host on which everything succeeds; it has `paplay` and every sound file. -/
def host (active : String) : Host where
  loginctl := loginctl active
  disk := .sound
  programs := ⟨fun prog => prog = "paplay", fun _ => true⟩
  devices := []
  stamp := "2024-01-01T00:00:00Z"

/-- A host with one input device, the remote that `shutter` is paired with. -/
def remoteHost : Host :=
  { host "c1" with devices := [⟨⟨"/dev/input/event5"⟩, "AB Shutter", true, false⟩] }

def keyboard : DeviceEntry := ⟨⟨"/dev/input/event0"⟩, "AT Keyboard", true, false⟩

/-- The same with a keyboard, which `shutter` watches. -/
def deskHost : Host := { remoteHost with devices := keyboard :: remoteHost.devices }

/-- The daemon just started on an empty disk, with `active` as the session on `seat0`. -/
def boot (cfg : Config) (active : String) : Daemon :=
  .start platform (host active) ⟨fun _ => none⟩ cfg ⟨"/etc/alertu/config.toml"⟩ ⟨none⟩

/-- Arming, an intrusion and a timer wake-up. -/
def escalation : List (Wake × Host) :=
  [(.control .arm, host "c1"), (.input (.activity "AT Keyboard"), host "c1"), (.timer, host "c1")]

end Bench

end AlertU
