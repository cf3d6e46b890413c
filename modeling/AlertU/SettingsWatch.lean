import AlertU.RemoteAlias
import AlertU.Settings

/-! The watched devices in the settings window. When Auto is unticked, the window writes down the list that
it takes to be watched: it knows a remote only by the text of its path, where the daemon compares
components and finds a remote by its name as well. -/

open FilePath

namespace AlertU.SettingsApp

open Devices

variable (app : SettingsApp)

/-- Path currently set as the remote (none when "auto"). -/
def remotePath : Option String := if app.cfg.remoteIsAuto then none else some app.cfg.remoteDevice

/-- The explicit watch list implied by the current devices. -/
def effectiveWatchExplicit : List String :=
  (app.devices.filter fun d => !d.isPointer && some d.path.raw ≠ app.remotePath).map (·.path.raw)

/-- The user unticks Auto. -/
def untickAuto : SettingsApp :=
  { app with cfg := { app.cfg with watchDevices := app.effectiveWatchExplicit } }

variable {app} {U : Text.Unicode} {entries : List DeviceEntry}

/-- What the window leaves out is the remote. -/
theorem isRemote_of_remotePath {path : PathBuf} (h : some path.raw = app.remotePath) :
    isRemote (namedRemote U app.cfg entries) path := by
  rw [remotePath] at h
  rw [namedRemote]
  split_ifs at h ⊢
  rw [← Option.some.inj h]
  exact same_self path

/-- A list of absolute paths is no wildcard. -/
theorem untickAuto_watchIsAuto (habsolute : ∀ d ∈ app.devices, d.path.isAbsolute) :
    app.untickAuto.cfg.watchIsAuto = false := by
  have hmem : ∀ name ∈ app.effectiveWatchExplicit, isAuto name = false := by
    intro name hname
    obtain ⟨d, hd, rfl⟩ := List.mem_map.mp hname
    have hnot := not_isAuto_of_isAbsolute (habsolute d (List.mem_filter.mp hd).1)
    simpa using hnot
  unfold Config.watchIsAuto
  split
  · rename_i only honly
    have hlist : app.effectiveWatchExplicit = [only] := honly
    exact hmem only (by simp [hlist])
  · rfl

/-- Unticking Auto changes nothing about what the daemon watches: what the window has missed, because
it compares texts and knows no hints, the daemon leaves out itself. -/
theorem untickAuto_keeps_watch (U : Text.Unicode) (app : SettingsApp) (entries : List DeviceEntry)
    (hdevices : app.devices = entries.map DeviceEntry.toInfo) (hauto : app.cfg.watchDevices = ["auto"])
    (habsolute : ∀ e ∈ entries, e.path.isAbsolute) :
    (resolve U app.untickAuto.cfg entries).watch = (resolve U app.cfg entries).watch := by
  have hexplicit : app.untickAuto.cfg.watchIsAuto = false := by
    apply untickAuto_watchIsAuto
    rw [hdevices]
    intro d hd
    obtain ⟨e, he, rfl⟩ := List.mem_map.mp hd
    exact habsolute e he
  have hwild : app.cfg.watchIsAuto := by
    rw [Config.watchIsAuto, hauto]
    exact isAuto_AUTO
  have hremote : namedRemote U app.untickAuto.cfg entries = namedRemote U app.cfg entries := rfl
  have hlist : candidates app.untickAuto.cfg entries =
      (entries.filter fun e => !e.isPointer && some e.path.raw ≠ app.remotePath).map (·.path) := by
    rw [candidates, hexplicit, if_neg Bool.false_ne_true]
    show app.effectiveWatchExplicit.map PathBuf.mk = _
    rw [effectiveWatchExplicit, hdevices, List.filter_map, List.map_map, List.map_map]
    rfl
  rw [resolve_watch, resolve_watch, hremote, hlist, candidates, if_pos hwild, List.filter_map,
    List.filter_map, List.filter_filter, List.filter_filter]
  congr 1
  apply List.filter_congr
  intro e _
  by_cases hremote : some e.path.raw = app.remotePath
  · have hsame : isRemote (namedRemote U app.cfg entries) e.path := isRemote_of_remotePath hremote
    simp [hremote, hsame]
  · simp [hremote]

/-- A window on a keyboard and on the remote, which is named by a path with a redundant separator. -/
def redundant : SettingsApp :=
  { new with
    cfg := { Config.default with remoteDevice := "/dev/input//event5" }
    devices := Bench.deskHost.devices.map DeviceEntry.toInfo }

theorem untickAuto_keeps_watch_redundant :
    (resolve Text.ascii redundant.untickAuto.cfg Bench.deskHost.devices).watch = [Bench.keyboard.path] := by
  have hwatched : (resolve Text.ascii redundant.cfg Bench.deskHost.devices).watch =
      [Bench.keyboard.path] := by decide +kernel
  rw [← hwatched]
  exact untickAuto_keeps_watch Text.ascii redundant Bench.deskHost.devices rfl rfl (by decide +kernel)

end AlertU.SettingsApp
