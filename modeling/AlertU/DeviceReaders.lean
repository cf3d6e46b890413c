import AlertU.Bench
import AlertU.MachineStep

/-! Which readers an enumerated device gets when the machine respawns them. The remote is kept out of
the watched devices, and its own reader is only spawned when some entry of `toggle_keys` names a key. -/

open FilePath

namespace AlertU

/-- Among devices with distinct paths, a path picks out at most one. -/
theorem filter_same_eq_singleton {entries : List DeviceEntry} {e : DeviceEntry}
    (hdistinct : entries.Pairwise fun a b => !a.path.same b.path) (he : e ∈ entries) :
    (entries.filter fun other => other.path.same e.path) = [e] := by
  obtain ⟨before, after, rfl⟩ := List.append_of_mem he
  obtain ⟨-, hafter, hcross⟩ := List.pairwise_append.mp hdistinct
  have hbefore : (before.filter fun other => other.path.same e.path) = [] := by
    apply List.filter_eq_nil_iff.mpr
    intro other hother
    simpa using hcross other hother e List.mem_cons_self
  have hrest : (after.filter fun other => other.path.same e.path) = [] := by
    apply List.filter_eq_nil_iff.mpr
    intro other hother
    rw [same_comm]
    simpa using (List.pairwise_cons.mp hafter).1 other hother
  rw [List.filter_append, hbefore, List.nil_append, List.filter_cons, if_pos (same_self e.path), hrest]

namespace Daemon

open Devices

variable (p : Platform) (host : Host) (d : Daemon)

/-- The readers of the device at `path`. -/
def readersOf (path : PathBuf) : List Reader := d.readers.filter fun r => r.path.same path

/-- Whether `resolve` chooses the device at `path` as the remote. -/
def choosesRemote (path : PathBuf) : Bool :=
  isRemote (resolve p.unicode d.cfg host.devices).remote path

/-- The keys that the reader of the remote waits for. -/
def toggleKeys : List KeyCode := parseToggleKeys p.evdev d.cfg.toggleKeys

/-- The reader that `spawnReaders` requests for the remote. -/
def remoteReader : List Reader :=
  match (resolve p.unicode d.cfg host.devices).remote with
  | none => []
  | some path => if (d.toggleKeys p).isEmpty then [] else [⟨path, .remote (d.toggleKeys p)⟩]

variable {p host d} {e : DeviceEntry}

theorem spawnReaders_readers : (d.spawnReaders p host).readers = d.remoteReader p host ++
    (resolve p.unicode d.cfg host.devices).watch.map fun path => ⟨path, .watch⟩ := rfl

theorem resolve_watch_of_auto (hauto : d.cfg.watchIsAuto) :
    (resolve p.unicode d.cfg host.devices).watch =
      (host.devices.filter fun e => !d.choosesRemote p host e.path && !e.isPointer).map (·.path) := by
  simp only [choosesRemote, resolve, hauto, if_true]

/-- The remote's reader is the only one that a path chosen as the remote can have. -/
theorem remoteReader_filter :
    ((d.remoteReader p host).filter fun r => r.path.same e.path) =
      if d.choosesRemote p host e.path then d.remoteReader p host else [] := by
  rw [remoteReader, choosesRemote]
  cases (resolve p.unicode d.cfg host.devices).remote with
  | none => simp [isRemote]
  | some path =>
      simp only [isRemote, same_comm e.path path]
      by_cases hkeys : (d.toggleKeys p).isEmpty
      · simp [hkeys]
      · by_cases hsame : path.same e.path <;> simp [hkeys, hsame]

/-- The watched readers of an enumerated device that is no pointer: one, unless it is the remote. -/
theorem watch_filter (hauto : d.cfg.watchIsAuto)
    (hdistinct : host.devices.Pairwise fun a b => !a.path.same b.path) (he : e ∈ host.devices)
    (hpointer : e.isPointer = false) :
    (((resolve p.unicode d.cfg host.devices).watch.map fun path => (⟨path, .watch⟩ : Reader)).filter
        fun r => r.path.same e.path) =
      if d.choosesRemote p host e.path then [] else [⟨e.path, .watch⟩] := by
  rw [resolve_watch_of_auto hauto, List.map_map, List.filter_map, List.filter_filter]
  have hswap : host.devices.filter (fun other => ((fun r : Reader => r.path.same e.path) ∘
        (fun path => ⟨path, .watch⟩) ∘ DeviceEntry.path) other &&
          (!d.choosesRemote p host other.path && !other.isPointer)) =
      (host.devices.filter fun other => other.path.same e.path).filter fun other =>
        !d.choosesRemote p host other.path && !other.isPointer := by
    rw [List.filter_filter]
    apply List.filter_congr
    intro other _
    exact Bool.and_comm _ _
  rw [hswap, filter_same_eq_singleton hdistinct he]
  by_cases hremote : d.choosesRemote p host e.path <;> simp [hremote, hpointer]

/-- After `spawnReaders`, an enumerated device that is no pointer has one watching reader, unless it is
the remote. The remote has one reader too when `toggle_keys` names some key, and none otherwise. -/
theorem spawnReaders_reads_every_device (hauto : d.cfg.watchIsAuto)
    (hdistinct : host.devices.Pairwise fun a b => !a.path.same b.path) (he : e ∈ host.devices)
    (hpointer : e.isPointer = false) :
    (d.choosesRemote p host e.path = false →
      (d.spawnReaders p host).readersOf e.path = [⟨e.path, .watch⟩]) ∧
    (d.choosesRemote p host e.path = true → d.toggleKeys p ≠ [] →
      ∃ path, path.same e.path ∧
        (d.spawnReaders p host).readersOf e.path = [⟨path, .remote (d.toggleKeys p)⟩]) ∧
    (d.choosesRemote p host e.path = true → d.toggleKeys p = [] →
      (d.spawnReaders p host).readersOf e.path = []) := by
  have hreaders : (d.spawnReaders p host).readersOf e.path =
      (if d.choosesRemote p host e.path then d.remoteReader p host else []) ++
        if d.choosesRemote p host e.path then [] else [⟨e.path, .watch⟩] := by
    rw [readersOf, spawnReaders_readers, List.filter_append, remoteReader_filter,
      watch_filter hauto hdistinct he hpointer]
  rw [hreaders]
  refine ⟨fun hremote => by simp [hremote], fun hremote hkeys => ?_, fun hremote hkeys => ?_⟩
  · cases hpath : (resolve p.unicode d.cfg host.devices).remote with
    | none => simp [choosesRemote, hpath, isRemote] at hremote
    | some path =>
        refine ⟨path, ?_, ?_⟩
        · rw [same_comm]
          simpa [choosesRemote, hpath, isRemote] using hremote
        · simp [hremote, remoteReader, hpath, hkeys]
  · cases hpath : (resolve p.unicode d.cfg host.devices).remote <;>
      simp [hremote, remoteReader, hpath, hkeys]

theorem spawnReaders_reads_every_device_shutter :
    ((Bench.boot Bench.shutter "c1").spawnReaders Bench.platform Bench.deskHost).readersOf
        Bench.keyboard.path = [⟨Bench.keyboard.path, .watch⟩] ∧
      ∃ path : PathBuf, path.same ⟨"/dev/input/event5"⟩ ∧
        ((Bench.boot Bench.shutter "c1").spawnReaders Bench.platform Bench.deskHost).readersOf
          ⟨"/dev/input/event5"⟩ = [⟨path, .remote [28]⟩] := by
  have hauto : (Bench.boot Bench.shutter "c1").cfg.watchIsAuto := by decide +kernel
  have hdistinct : Bench.deskHost.devices.Pairwise fun a b => !a.path.same b.path := by decide +kernel
  have hkeyboard := spawnReaders_reads_every_device (p := Bench.platform) (e := Bench.keyboard) hauto
    hdistinct (by decide +kernel) rfl
  have hremote := spawnReaders_reads_every_device (p := Bench.platform)
    (e := ⟨⟨"/dev/input/event5"⟩, "AB Shutter", true, false⟩) hauto hdistinct (by decide +kernel) rfl
  exact ⟨hkeyboard.1 (by decide +kernel), hremote.2.1 (by decide +kernel) (by decide +kernel)⟩

/-- A configuration that `validate` accepts although its only key name is unknown. -/
def misnamed : Config :=
  Config.default.applyLearnedRemote ⟨"/dev/input/event5"⟩ "AB Shutter" "Enter"

/-- With no known key name, the device that is resolved as the remote is not read at all. -/
theorem spawnReaders_leaves_remote_unread :
    ¬∀ (p : Platform) (host : Host) (d : Daemon) (e : DeviceEntry), d.cfg.validate = .ok () →
      d.cfg.watchDevices = ["auto"] →
      (host.devices.Pairwise fun a b => !a.path.same b.path) → e ∈ host.devices →
      e.isPointer = false →
      ∃ r, (d.spawnReaders p host).readersOf e.path = [r] ∧
        r.role = if d.choosesRemote p host e.path then .remote (d.toggleKeys p) else .watch := by
  intro h
  obtain ⟨r, hreaders, -⟩ := h Bench.platform Bench.remoteHost (Bench.boot misnamed "c1")
    ⟨⟨"/dev/input/event5"⟩, "AB Shutter", true, false⟩ (by decide +kernel) (by decide +kernel)
    (by decide +kernel) (by decide +kernel) rfl
  have hnone : ((Bench.boot misnamed "c1").spawnReaders Bench.platform Bench.remoteHost).readersOf
      ⟨"/dev/input/event5"⟩ = [] := by decide +kernel
  rw [hnone] at hreaders
  cases hreaders

end Daemon

end AlertU
