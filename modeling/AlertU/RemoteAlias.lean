import AlertU.Bench
import AlertU.MachineStep

/-! The devices behind the paths. A path may be a symbolic link, so that paths with different components
lead to one device, and the resolution tells the watched devices from the remote by their paths. -/

open FilePath

namespace AlertU

variable {δ : Type}

/-- Two paths that lead to one device, where `node` is the device behind a path, if there is one. -/
def SameDevice (node : PathBuf → Option δ) (p q : PathBuf) : Prop :=
  ∃ dev, node p = some dev ∧ node q = some dev

namespace Devices

variable (node : PathBuf → Option δ) (U : Text.Unicode) (cfg : Config) (entries : List DeviceEntry)

/-- The path of the device that has the hint in its name, or the one that the configuration gives. -/
def namedRemote : Option PathBuf :=
  if cfg.remoteIsAuto then (findByHint U cfg.remoteNameHint entries).map (·.path)
  else some ⟨cfg.remoteDevice⟩

/-- The paths of the devices to watch, before the remote is taken out. -/
def candidates : List PathBuf :=
  if cfg.watchIsAuto then (entries.filter fun e => !e.isPointer).map (·.path)
  else cfg.watchDevices.map PathBuf.mk

/-- A device to watch that is the remote goes by the path of the remote. -/
def SpelledAlike : Prop :=
  ∀ remote, namedRemote U cfg entries = some remote → ∀ path ∈ candidates cfg entries,
    SameDevice node path remote → path.same remote

variable {node U cfg entries}

theorem resolve_remote : (resolve U cfg entries).remote = namedRemote U cfg entries := by
  simp only [resolve, resolveRemote, namedRemote]
  split_ifs
  · cases findByHint U cfg.remoteNameHint entries <;> rfl
  · rfl

theorem resolve_watch : (resolve U cfg entries).watch =
    (candidates cfg entries).filter fun path => !isRemote (namedRemote U cfg entries) path := by
  rw [← resolve_remote]
  simp only [resolve, candidates]
  split_ifs
  · rw [List.filter_map, List.filter_filter]
    rfl
  · rfl

theorem mem_watch_iff {remote path : PathBuf} (h : namedRemote U cfg entries = some remote) :
    path ∈ (resolve U cfg entries).watch ↔ path ∈ candidates cfg entries ∧ ¬path.same remote := by
  rw [resolve_watch, List.mem_filter, h]
  simp [isRemote]

/-- The paths of an enumeration do not alias, so that a remote found by its name is always told from the
devices that are watched automatically. -/
theorem spelledAlike_of_auto (hremote : cfg.remoteIsAuto) (hwatch : cfg.watchIsAuto)
    (hdistinct : ∀ a ∈ entries, ∀ b ∈ entries, SameDevice node a.path b.path → a.path.same b.path) :
    SpelledAlike node U cfg entries := by
  intro remote hnamed path hpath halias
  rw [namedRemote, if_pos hremote, Option.map_eq_some_iff] at hnamed
  obtain ⟨found, hfound, rfl⟩ := hnamed
  rw [candidates, if_pos hwatch] at hpath
  obtain ⟨e, he, rfl⟩ := List.mem_map.mp hpath
  have hmem : found ∈ entries := by
    simp only [findByHint] at hfound
    split_ifs at hfound
    exact List.mem_of_find?_eq_some hfound
  exact hdistinct e (List.mem_filter.mp he).1 found hmem halias

end Devices

namespace Daemon

open Devices

variable [DecidableEq δ] (node : PathBuf → Option δ) (p : Platform) (host : Host) (d : Daemon)

/-- The signals that the readers send for an event of a device: each reads the device behind its path. -/
def signalsOf (dev : δ) (name : String) (event : EventSummary) : List InputSignal :=
  d.readers.filterMap fun reader =>
    if node reader.path = some dev then reader.role.signal name event else none

/-- No device is both the remote and watched, and no press on the remote is activity. -/
structure RemoteUnwatched : Prop where
  apart : ∀ remote, (resolve p.unicode d.cfg host.devices).remote = some remote →
    ∀ path ∈ (resolve p.unicode d.cfg host.devices).watch, ¬SameDevice node path remote
  uncounted : ∀ remote, (resolve p.unicode d.cfg host.devices).remote = some remote →
    ∀ dev, node remote = some dev → ∀ name code source,
      .activity source ∉ (d.spawnReaders p host).signalsOf node dev name (.key code 1)

variable {node p host d}

/-- A press is activity when some watched path leads to the device. -/
theorem activity_mem_signalsOf {dev : δ} {name source : String} {code : KeyCode}
    (h : .activity source ∈ (d.spawnReaders p host).signalsOf node dev name (.key code 1)) :
    ∃ path ∈ (resolve p.unicode d.cfg host.devices).watch, node path = some dev := by
  obtain ⟨reader, hreader, hsignal⟩ := List.mem_filterMap.mp h
  split_ifs at hsignal with hdev
  rcases List.mem_append.mp hreader with hreader | hreader
  · cases hremote : (resolve p.unicode d.cfg host.devices).remote with
    | none =>
        rw [hremote] at hreader
        cases hreader
    | some remote =>
        rw [hremote] at hreader
        simp only at hreader
        split_ifs at hreader
        · cases hreader
        · rw [List.mem_singleton] at hreader
          subst hreader
          simp only [Role.signal] at hsignal
          split_ifs at hsignal
          cases hsignal
  · obtain ⟨path, hpath, rfl⟩ := List.mem_map.mp hreader
    exact ⟨path, hpath, hdev⟩

/-- The readers keep the remote out of the watched devices exactly when no device to watch leads to it
by another path. -/
theorem remoteUnwatched_iff : d.RemoteUnwatched node p host ↔
    SpelledAlike node p.unicode d.cfg host.devices := by
  constructor
  · intro h remote hremote path hpath halias
    by_contra hspelled
    have hwatched := (mem_watch_iff hremote).mpr ⟨hpath, hspelled⟩
    exact h.apart remote (resolve_remote.trans hremote) path hwatched halias
  · intro h
    have hapart : ∀ remote, (resolve p.unicode d.cfg host.devices).remote = some remote →
        ∀ path ∈ (resolve p.unicode d.cfg host.devices).watch, ¬SameDevice node path remote := by
      intro remote hremote path hpath halias
      rw [resolve_remote] at hremote
      obtain ⟨hcandidate, hspelled⟩ := (mem_watch_iff hremote).mp hpath
      exact hspelled (h remote hremote path hcandidate halias)
    refine ⟨hapart, fun remote hremote dev hdev name code source hsignal => ?_⟩
    obtain ⟨path, hpath, hnode⟩ := activity_mem_signalsOf hsignal
    exact hapart remote hremote path hpath ⟨dev, hnode, hdev⟩

/-- The remote by the name that udev links to its node. -/
def linked : Config :=
  { Config.default with remoteDevice := "/dev/input/by-id/usb-AB_Shutter-event-kbd" }

/-- The link and the node that the enumeration reports are one device. -/
def nodeOfLink (path : PathBuf) : Option ℕ :=
  if path.same ⟨"/dev/input/event5"⟩ || path.same ⟨"/dev/input/by-id/usb-AB_Shutter-event-kbd"⟩ then
    some 5
  else none

/-- A remote that is configured by such a link is watched as well. -/
theorem remote_watched_through_link :
    ¬∀ (p : Platform) (host : Host) (d : Daemon) (node : PathBuf → Option ℕ),
      d.cfg.validate = .ok () → d.RemoteUnwatched node p host := by
  intro h
  have hapart := (h Bench.platform Bench.remoteHost (Bench.boot linked "c1") nodeOfLink
    (by decide +kernel)).apart ⟨"/dev/input/by-id/usb-AB_Shutter-event-kbd"⟩ (by decide +kernel)
    ⟨"/dev/input/event5"⟩ (by decide +kernel)
  exact hapart ⟨5, by decide +kernel, by decide +kernel⟩

end Daemon

end AlertU
