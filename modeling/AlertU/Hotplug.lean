import AlertU.Bench
import AlertU.Connection
import AlertU.Debounce

/-! The hotplug watcher and the machine. Device nodes come and go while the watcher sets itself up, while
it waits for a burst to settle and while the machine enumerates devices. Once nothing is outstanding, the
published device list and the readers are those of the devices that are there. -/

open FilePath Timing Debounce Runs

namespace AlertU

/-- Quiet window after the last change before a rescan is issued. -/
def DEBOUNCE : ℕ := fromMillis 600

/-- The capacity of the control channel. -/
def CONTROL_CAPACITY : ℕ := 32

/-- What inotify reports about the entries of a directory. -/
inductive InotifyEvent where
  | access
  | modify
  | attrib
  | closeWrite
  | closeNowrite
  | opened
  | movedFrom
  | movedTo
  | create
  | delete
  deriving DecidableEq, Repr

/-- The events that the watcher asks for. -/
def WATCH_MASK : List InotifyEvent := [.create, .delete, .movedFrom, .movedTo, .attrib]

/-- How far the watcher has got. Events are queued for it from `added` on. -/
inductive Watcher where
  | starting
  | added
  | looping (loop : Loop)
  | stopped

namespace Watcher

def isActive : Watcher → Bool
  | .added | .looping _ => true
  | _ => false

/-- A change has been read and no rescan has been sent for it. -/
def isOwing : Watcher → Bool
  | .looping loop => loop.dirty || loop.since.isNone
  | _ => false

end Watcher

/-- The readers that a configuration asks for among the enumerated devices. -/
def wantedReaders (p : Platform) (cfg : Config) (entries : List DeviceEntry) : List Reader :=
  let resolved := Devices.resolve p.unicode cfg entries
  let remote :=
    match resolved.remote with
    | none => []
    | some path =>
        let keys := parseToggleKeys p.evdev cfg.toggleKeys
        if keys.isEmpty then [] else [⟨path, .remote keys⟩]
  remote ++ resolved.watch.map fun path => ⟨path, .watch⟩

/-- What the daemon is started with. -/
structure Launch where
  files : FileSystem
  cfg : Config
  cfgPath : PathBuf
  privileges : Privileges

/-- The machine, from its first enumeration on; the message that it is handling (none while it
starts), and whether the devices have changed since it took that up; the commands in its channel; the
devices that are there, what inotify holds for the watcher, and the watcher. `missed` says that the devices
have changed since the machine first looked, before there was a watch, and that nothing was reported
since. -/
structure Hotplug where
  machine : Option Service
  busy : Option (Option Wake × Bool)
  controls : List Control
  devices : List DeviceEntry
  events : List InotifyEvent
  watcher : Watcher
  clock : ℕ
  missed : Bool

inductive HotplugInput where
  | pass (nanos : ℕ)
  | kernel (event : InotifyEvent) (devices : List DeviceEntry) (merged : Bool)
  | addWatch (ok : Bool)
  | stream (ok : Bool)
  | turn (turn : Turn)
  | ended
  | command (ctrl : Control)
  | boot
  | take (wake : Wake)
  | finish (host : Host)

namespace Hotplug

/-- Nothing has been started. -/
def start (devices : List DeviceEntry) : Hotplug := ⟨none, none, [], devices, [], .starting, 0, false⟩

variable (s : Hotplug)

/-- Something happens in the directory. What is enumerated changes only with an event that the watcher
asks for; inotify merges an event with the one before it. -/
def kernel (event : InotifyEvent) (devices : List DeviceEntry) (merged : Bool) :
    Except Unit Hotplug :=
  if event ∈ WATCH_MASK then
    let next : Hotplug := { s with devices, busy := s.busy.map fun (wake, _) => (wake, true) }
    if s.watcher.isActive then
      if merged then if s.events = [] then .error () else .ok { next with missed := false }
      else .ok { next with events := s.events ++ [event], missed := false }
    else .ok { next with missed := s.missed || s.machine.isSome || s.busy.isSome }
  else if devices = s.devices then .ok s
  else .error ()

/-- `ctrl_tx.send(Control::Rescan)` returns. -/
def sendRescan (loop : Loop) : Except Unit Hotplug :=
  match s.machine with
  | some ⟨_, false⟩ => .ok { s with watcher := .stopped }
  | _ =>
      if s.controls.length < CONTROL_CAPACITY then
        .ok { s with controls := s.controls ++ [.rescan], watcher := .looping loop }
      else .error ()

/-- What the watcher does in a turn of its loop, which takes it to `loop`. -/
def act (loop : Loop) : Turn → Except Unit Hotplug
  | .changed =>
      match s.events with
      | [] => .error ()
      | _ :: events => .ok { s with events, watcher := .looping loop }
  | .failed | .settled => .ok { s with watcher := .looping loop }
  | .resumed => s.sendRescan loop

/-- One turn of the watcher's loop. -/
def turn (turn : Turn) : Except Unit Hotplug :=
  match s.watcher with
  | .looping loop =>
      match loop.step DEBOUNCE (s.clock, turn) with
      | .error e => .error e
      | .ok loop => s.act loop turn
  | _ => .error ()

/-- The machine takes up a message. -/
def take (wake : Wake) : Except Unit Hotplug :=
  match s.machine, s.busy with
  | some ⟨_, true⟩, none =>
      match wake with
      | .control ctrl =>
          if s.controls.head? = some ctrl then
            .ok { s with controls := s.controls.tail, busy := some (some wake, false) }
          else .error ()
      | wake => .ok { s with busy := some (some wake, false) }
  | _, _ => .error ()

/-- The machine has handled its message, or has started. It has seen the devices as they are, unless they
have changed meanwhile. -/
def finish (p : Platform) (launch : Launch) (host : Host) : Except Unit Hotplug :=
  match s.busy with
  | none => .error ()
  | some (wake, changed) =>
      if !changed ∧ host.devices ≠ s.devices then .error ()
      else
        match wake, s.machine with
        | none, none =>
            let daemon :=
              Daemon.start p host launch.files launch.cfg launch.cfgPath launch.privileges
            .ok { s with machine := some ⟨daemon, true⟩, busy := none }
        | some wake, some v =>
            match v.wake p wake host with
            | .ok v => .ok { s with machine := some v, busy := none }
            | .error e => .error e
        | _, _ => .error ()

def step (p : Platform) (launch : Launch) (s : Hotplug) : HotplugInput → Except Unit Hotplug
  | .pass nanos => .ok { s with clock := s.clock + nanos }
  | .kernel event devices merged => s.kernel event devices merged
  | .addWatch ok =>
      match s.watcher with
      | .starting => .ok { s with watcher := if ok then .added else .stopped }
      | _ => .error ()
  | .stream ok =>
      match s.watcher with
      | .added => .ok { s with watcher := if ok then .looping (.start s.clock) else .stopped }
      | _ => .error ()
  | .turn turn => s.turn turn
  | .ended =>
      match s.watcher with
      | .looping _ => .ok { s with watcher := .stopped }
      | _ => .error ()
  | .command ctrl =>
      if s.controls.length < CONTROL_CAPACITY then .ok { s with controls := s.controls ++ [ctrl] }
      else .error ()
  | .boot =>
      match s.machine, s.busy with
      | none, none => .ok { s with busy := some (none, false) }
      | _, _ => .error ()
  | .take wake => s.take wake
  | .finish host => s.finish p launch host

/-- A change is on its way to the machine. -/
def Pending : Prop := s.events ≠ [] ∨ s.watcher.isOwing ∨ .rescan ∈ s.controls

/-- A change that the machine has not seen is on its way, or it has been missed for good. -/
def Excused : Prop := s.missed ∨ s.watcher = .stopped ∨ s.Pending

/-- The watcher waits, and the machine has no rescan before it. -/
structure Settled : Prop where
  watching : s.watcher.isActive
  nothing : ¬s.Pending
  idle : ∀ changed, s.busy ≠ some (some (.control .rescan), changed)

end Hotplug

/-- The machine shows the devices `entries` to its subscribers and reads those that its configuration asks
for. -/
structure Daemon.Reflects (p : Platform) (d : Daemon) (entries : List DeviceEntry) : Prop where
  published : d.devicesTx.value = entries.map DeviceEntry.toInfo
  read : d.readers = wantedReaders p d.cfg entries

namespace Daemon

variable {p : Platform} {host : Host} {d d' : Daemon} {wake : Wake} {entries : List DeviceEntry}

theorem spawnReaders_reflects (h : d.devicesTx.receivers ≠ 0) :
    (d.spawnReaders p host).Reflects p host.devices :=
  ⟨Channel.Watch.send_value _ _ h, rfl⟩

theorem start_reflects (files : FileSystem) (cfg : Config) (cfgPath : PathBuf)
    (privileges : Privileges) :
    (start p host files cfg cfgPath privileges).Reflects p host.devices :=
  spawnReaders_reflects (by simp [Channel.watch])

theorem start_subscribed (files : FileSystem) (cfg : Config) (cfgPath : PathBuf)
    (privileges : Privileges) :
    (start p host files cfg cfgPath privileges).devicesTx.receivers ≠ 0 := by
  have hone : (start p host files cfg cfgPath privileges).devicesTx.receivers = 1 :=
    Channel.Watch.send_receivers _ _
  rw [hone]
  exact Nat.one_ne_zero

/-- A step that touches neither the device channel nor the readers and their configuration. -/
structure SameDevices (d d' : Daemon) : Prop where
  published : d'.devicesTx = d.devicesTx
  readers : d'.readers = d.readers
  cfg : d'.cfg = d.cfg

theorem SameDevices.reflects (hsame : SameDevices d d') (h : d.Reflects p entries) :
    d'.Reflects p entries := by
  refine ⟨?_, ?_⟩
  · rw [hsame.published]
    exact h.published
  · rw [hsame.readers, hsame.cfg]
    exact h.read

/-- A step of the machine enumerates the devices for both the subscribers and the readers, or leaves them
alone. -/
theorem StepResult.devices (hstep : StepResult p host d wake d') :
    d'.devicesTx.receivers = d.devicesTx.receivers ∧
      (SameDevices d d' ∨ (d.devicesTx.receivers ≠ 0 → d'.Reflects p host.devices)) := by
  cases hstep with
  | rescanned => exact ⟨Channel.Watch.send_receivers _ _, .inr spawnReaders_reflects⟩
  | installed cfg files _ _ =>
      refine ⟨Channel.Watch.send_receivers _ _, .inr fun h => ?_⟩
      rw [installing]
      exact spawnReaders_reflects h
  | intruded _ _ _ _ _ hgrace _ => cases hgrace <;> exact ⟨rfl, .inl ⟨rfl, rfl, rfl⟩⟩
  | skipped _ _ _ | ignored _ _ _ _ _ | inGrace _ _ _ _ _ _ | armed _ _ _ _ _ _ _
  | disarmed _ _ _ _ _ | ticked _ _ | sounded _ _ _ _ | rejected _ _ _ _ | replied
  | learned _ _ _ | refused _ _ _ | tested => exact ⟨rfl, .inl ⟨rfl, rfl, rfl⟩⟩

/-- A step on the devices `entries`, or on others if a rescan is still to come. -/
theorem step_reflects (hstep : d.step p (wake, host) = .ok d') (hrx : d.devicesTx.receivers ≠ 0) :
    d'.devicesTx.receivers ≠ 0 ∧ (d.Reflects p entries ∨ wake = .control .rescan →
      host.devices = entries → d'.Reflects p entries) := by
  obtain ⟨hreceivers, hdevices⟩ := (step_cases hstep).devices
  rw [hreceivers]
  refine ⟨hrx, fun hbefore hentries => ?_⟩
  rcases hbefore with hbefore | rfl
  · rcases hdevices with hsame | hreflects
    · exact hsame.reflects hbefore
    · rw [← hentries]
      exact hreflects hrx
  · cases hstep
    rw [← hentries]
    exact spawnReaders_reflects hrx

/-- Whatever the machine has handled, its subscribers and its readers agree: the list that is published and
the readers, for the configuration in force, come from one and the same enumeration. -/
theorem published_and_readers_agree {files : FileSystem} {cfg : Config} {cfgPath : PathBuf}
    {privileges : Privileges} {inputs : List (Wake × Host)}
    (hrun : Run (step p) (start p host files cfg cfgPath privileges) inputs d) :
    ∃ entries, d.Reflects p entries := by
  let Agrees (d : Daemon) : Prop := d.devicesTx.receivers ≠ 0 ∧ ∃ entries, d.Reflects p entries
  have hinv : Agrees d := by
    refine hrun.invariant ⟨start_subscribed _ _ _ _, host.devices, start_reflects _ _ _ _⟩ ?_
    rintro s ⟨wake, host⟩ next ⟨hrx, entries, hreflects⟩ - hstep
    show next.devicesTx.receivers ≠ 0 ∧ _
    obtain ⟨hreceivers, hdevices⟩ := (step_cases hstep).devices
    rw [hreceivers]
    rcases hdevices with hsame | hnext
    · exact ⟨hrx, entries, hsame.reflects hreflects⟩
    · exact ⟨hrx, host.devices, hnext hrx⟩
  exact hinv.2

theorem published_and_readers_agree_shutter : ∃ (d : Daemon) (entries : List DeviceEntry),
    d.readers ≠ [] ∧ d.Reflects Bench.platform entries := by
  obtain ⟨d, hrun, hreaders⟩ : ∃ d, Run (step Bench.platform) (Bench.boot Bench.shutter "c1")
      [(.control .rescan, Bench.remoteHost), (.control .arm, Bench.host "c1")] d ∧ d.readers ≠ [] :=
    ⟨_, run_get (by decide +kernel), by decide +kernel⟩
  obtain ⟨entries, hreflects⟩ := published_and_readers_agree hrun
  exact ⟨d, entries, hreaders, hreflects⟩

end Daemon

namespace Hotplug

variable {p : Platform} {launch : Launch} {s s' : Hotplug}

/-! ### What a step can do -/

theorem wake_cases {v v' : Service} {wake : Wake} {host : Host} (h : v.wake p wake host = .ok v') :
    (v'.running = false ∧ v'.daemon = v.daemon) ∨ v.running ∧
      v.daemon.step p (wake, host) = .ok v'.daemon := by
  unfold Service.wake at h
  split_ifs at h with hrunning
  cases hstep : v.daemon.step p (wake, host) with
  | error e =>
      rw [hstep] at h
      cases h
      exact .inl ⟨rfl, rfl⟩
  | ok next =>
      rw [hstep] at h
      cases h
      exact .inr ⟨hrunning, rfl⟩

/-- What becomes of the machine when it returns from its message, or from its start. -/
inductive Returned (p : Platform) (launch : Launch) (host : Host) :
    Option Wake → Option Service → Service → Prop where
  | started : Returned p launch host none none
      ⟨Daemon.start p host launch.files launch.cfg launch.cfgPath launch.privileges, true⟩
  | handled {wake : Wake} {v v' : Service} (hwake : v.wake p wake host = .ok v') :
      Returned p launch host (some wake) (some v) v'

/-- The outcomes of a step. -/
inductive Stepped (p : Platform) (launch : Launch) (s : Hotplug) : HotplugInput → Hotplug → Prop where
  | passed (nanos : ℕ) : Stepped p launch s (.pass nanos) { s with clock := s.clock + nanos }
  | ignored (event : InotifyEvent) (devices : List DeviceEntry) (merged : Bool) :
      Stepped p launch s (.kernel event devices merged) s
  | reported (event : InotifyEvent) (devices : List DeviceEntry) (merged : Bool)
      (events : List InotifyEvent) (hevents : events ≠ []) :
      Stepped p launch s (.kernel event devices merged)
        { s with
          devices, events
          busy := s.busy.map fun (wake, _) => (wake, true)
          missed := false }
  | unreported (event : InotifyEvent) (devices : List DeviceEntry) (merged : Bool) :
      Stepped p launch s (.kernel event devices merged)
        { s with
          devices
          busy := s.busy.map fun (wake, _) => (wake, true)
          missed := s.missed || s.machine.isSome || s.busy.isSome }
  | gone (input : HotplugInput) : Stepped p launch s input { s with watcher := .stopped }
  | added (hwatcher : s.watcher = .starting) :
      Stepped p launch s (.addWatch true) { s with watcher := .added }
  | looping (hwatcher : s.watcher = .added) :
      Stepped p launch s (.stream true) { s with watcher := .looping (.start s.clock) }
  | read (loop loop' : Loop) (event : InotifyEvent) (events : List InotifyEvent)
      (hwatcher : s.watcher = .looping loop) (hevents : s.events = event :: events)
      (hloop : loop.step DEBOUNCE (s.clock, .changed) = .ok loop') :
      Stepped p launch s (.turn .changed) { s with events, watcher := .looping loop' }
  | waited (loop loop' : Loop) (turn : Turn) (hturn : turn = .failed ∨ turn = .settled)
      (hwatcher : s.watcher = .looping loop)
      (hloop : loop.step DEBOUNCE (s.clock, turn) = .ok loop') :
      Stepped p launch s (.turn turn) { s with watcher := .looping loop' }
  | sent (loop loop' : Loop) (hwatcher : s.watcher = .looping loop)
      (hloop : loop.step DEBOUNCE (s.clock, .resumed) = .ok loop') :
      Stepped p launch s (.turn .resumed)
        { s with controls := s.controls ++ [.rescan], watcher := .looping loop' }
  | commanded (ctrl : Control) :
      Stepped p launch s (.command ctrl) { s with controls := s.controls ++ [ctrl] }
  | booted (hmachine : s.machine = none) : Stepped p launch s .boot { s with busy := some (none, false) }
  | taken (wake : Wake) (controls : List Control) (hbusy : s.busy = none)
      (hrescan : .rescan ∈ s.controls → wake = .control .rescan ∨ .rescan ∈ controls) :
      Stepped p launch s (.take wake) { s with controls, busy := some (some wake, false) }
  | finished (host : Host) (wake : Option Wake) (changed : Bool) (v : Service)
      (hbusy : s.busy = some (wake, changed)) (hseen : changed = false → host.devices = s.devices)
      (hreturned : Returned p launch host wake s.machine v) :
      Stepped p launch s (.finish host) { s with machine := some v, busy := none }

theorem kernel_cases {event : InotifyEvent} {devices : List DeviceEntry} {merged : Bool}
    (h : s.kernel event devices merged = .ok s') :
    Stepped p launch s (.kernel event devices merged) s' := by
  unfold Hotplug.kernel at h
  simp only at h
  split_ifs at h with hmask hactive hmerged hempty hdevices
  · cases h
    exact .reported event devices merged s.events hempty
  · cases h
    exact .reported event devices merged _ (by simp)
  · cases h
    exact .unreported event devices merged
  · cases h
    exact .ignored event devices merged

theorem turn_cases {turn : Turn} (h : s.turn turn = .ok s') : Stepped p launch s (.turn turn) s' := by
  unfold Hotplug.turn at h
  split at h
  · rename_i loop hwatcher
    cases hloop : loop.step DEBOUNCE (s.clock, turn) with
    | error e =>
        rw [hloop] at h
        cases h
    | ok loop' =>
        rw [hloop] at h
        cases turn with
        | changed =>
            simp only [act] at h
            split at h <;> cases h
            exact .read loop loop' _ _ hwatcher ‹_› hloop
        | failed =>
            cases h
            exact .waited loop loop' .failed (.inl rfl) hwatcher hloop
        | settled =>
            cases h
            exact .waited loop loop' .settled (.inr rfl) hwatcher hloop
        | resumed =>
            simp only [act, sendRescan] at h
            split at h
            · cases h
              exact .gone _
            · split_ifs at h
              cases h
              exact .sent loop loop' hwatcher hloop
  · cases h

theorem take_cases {wake : Wake} (h : s.take wake = .ok s') :
    Stepped p launch s (.take wake) s' := by
  unfold Hotplug.take at h
  split at h
  · rename_i hmachine hbusy
    split at h
    · rename_i ctrl
      split_ifs at h with hhead
      cases h
      refine .taken _ s.controls.tail hbusy fun hmem => ?_
      obtain ⟨rest, hcontrols⟩ := List.head?_eq_some_iff.mp hhead
      rw [hcontrols] at hmem ⊢
      rcases List.mem_cons.mp hmem with rfl | hmem
      · exact .inl rfl
      · exact .inr hmem
    · cases h
      exact .taken _ s.controls hbusy .inr
  · cases h

theorem finish_cases {host : Host} (h : s.finish p launch host = .ok s') :
    Stepped p launch s (.finish host) s' := by
  unfold Hotplug.finish at h
  split at h
  · cases h
  · rename_i wake changed hbusy
    split_ifs at h with hdevices
    have hseen : changed = false → host.devices = s.devices := by
      intro hchanged
      by_contra hne
      exact hdevices ⟨by simp [hchanged], hne⟩
    split at h
    · rename_i hmachine
      cases h
      exact .finished host none changed _ hbusy hseen (hmachine ▸ .started)
    · rename_i wake v hmachine
      cases hwake : v.wake p wake host with
      | error e =>
          rw [hwake] at h
          cases h
      | ok v' =>
          rw [hwake] at h
          cases h
          exact .finished host (some wake) changed v' hbusy hseen (hmachine ▸ .handled hwake)
    · cases h

/-- Everything that a step can do. -/
theorem step_cases {input : HotplugInput} (h : s.step p launch input = .ok s') :
    Stepped p launch s input s' := by
  cases input with
  | pass nanos =>
      cases h
      exact .passed nanos
  | kernel event devices merged => exact kernel_cases h
  | addWatch ok =>
      simp only [Hotplug.step] at h
      split at h
      · cases h
        cases ok with
        | false => exact .gone _
        | true => exact .added ‹_›
      · cases h
  | stream ok =>
      simp only [Hotplug.step] at h
      split at h
      · cases h
        cases ok with
        | false => exact .gone _
        | true => exact .looping ‹_›
      · cases h
  | turn turn => exact turn_cases h
  | ended =>
      simp only [Hotplug.step] at h
      split at h
      · cases h
        exact .gone _
      · cases h
  | command ctrl =>
      simp only [Hotplug.step] at h
      split_ifs at h
      cases h
      exact .commanded ctrl
  | boot =>
      simp only [Hotplug.step] at h
      split at h
      · cases h
        exact .booted ‹_›
      · cases h
  | take wake => exact take_cases h
  | finish host => exact finish_cases h

/-! ### What the machine shows -/

/-- The machine shows the devices that are there, or it will look again. -/
structure Follows (p : Platform) (s : Hotplug) : Prop where
  subscribed : ∀ v, s.machine = some v → v.daemon.devicesTx.receivers ≠ 0
  disturbed : ∀ wake, s.busy = some (wake, true) → s.Excused
  current : ∀ v, s.machine = some v → v.running → s.Excused ∨
    s.busy = some (some (.control .rescan), false) ∨ v.daemon.Reflects p s.devices

theorem Follows.start (devices : List DeviceEntry) : (Hotplug.start devices).Follows p where
  subscribed _ hv := by cases hv
  disturbed _ hwake := by cases hwake
  current _ hv := by cases hv

/-- A step that leaves the machine and the devices alone, and no change unheard. -/
theorem Follows.same (h : s.Follows p) (hmachine : s'.machine = s.machine) (hbusy : s'.busy = s.busy)
    (hdevices : s'.devices = s.devices) (hexcused : s.Excused → s'.Excused) : s'.Follows p := by
  refine ⟨fun v hv => h.subscribed v (hmachine ▸ hv), fun wake hwake => ?_, fun v hv hrunning => ?_⟩
  · rw [hbusy] at hwake
    exact hexcused (h.disturbed wake hwake)
  · rw [hmachine] at hv
    rw [hbusy, hdevices]
    exact (h.current v hv hrunning).imp_left hexcused

/-- A step after which the devices are excused. -/
theorem Follows.excused (h : s.Follows p) (hmachine : s'.machine = s.machine) (hexcused : s'.Excused) :
    s'.Follows p :=
  ⟨fun v hv => h.subscribed v (hmachine ▸ hv), fun _ _ => hexcused, fun _ _ _ => .inl hexcused⟩

theorem excused_looping {loop : Loop} (hwatcher : s.watcher = .looping loop) :
    s.Excused ↔ s.missed ∨ s.events ≠ [] ∨ loop.dirty ∨ loop.since = none ∨ .rescan ∈ s.controls := by
  simp [Excused, Pending, hwatcher, Watcher.isOwing, or_assoc]

/-- A burst that has settled leaves the loop with a rescan to send; a failure changes nothing. -/
theorem Follows.waited (h : s.Follows p) {loop loop' : Loop} {turn : Turn}
    (hturn : turn = .failed ∨ turn = .settled) (hwatcher : s.watcher = .looping loop)
    (hloop : loop.step DEBOUNCE (s.clock, turn) = .ok loop') :
    Follows p { s with watcher := .looping loop' } := by
  obtain ⟨-, -, -, -, hwhy⟩ := Loop.step_cases hloop
  rcases hturn with rfl | rfl
  · obtain ⟨hawake, hdirty⟩ : loop.since ≠ none ∧ loop'.dirty = loop.dirty := by simpa using hwhy
    refine h.same rfl rfl rfl fun hbefore => (excused_looping rfl).mpr ?_
    rcases (excused_looping hwatcher).mp hbefore with hmissed | hevents | hdirty' | hsince | hrescan
    · exact .inl hmissed
    · exact .inr (.inl hevents)
    · exact .inr (.inr (.inl (hdirty ▸ hdirty')))
    · exact absurd hsince hawake
    · exact .inr (.inr (.inr (.inr hrescan)))
  · simp only [reduceCtorEq, false_and, false_or, true_and] at hwhy
    exact h.same rfl rfl rfl fun _ =>
      (excused_looping rfl).mpr (.inr (.inr (.inr (.inl hwhy.2.1))))

theorem Follows.taken (h : s.Follows p) {wake : Wake} {controls : List Control} (hbusy : s.busy = none)
    (hrescan : .rescan ∈ s.controls → wake = .control .rescan ∨ .rescan ∈ controls) :
    Follows p { s with controls, busy := some (some wake, false) } := by
  refine ⟨h.subscribed, fun _ hwake => (by cases hwake), fun v hv hrunning => ?_⟩
  rcases h.current v hv hrunning with (hmissed | hstopped | hevents | howing | hmem) | hbusy' | hreflects
  · exact .inl (.inl hmissed)
  · exact .inl (.inr (.inl hstopped))
  · exact .inl (.inr (.inr (.inl hevents)))
  · exact .inl (.inr (.inr (.inr (.inl howing))))
  · rcases hrescan hmem with rfl | hmem
    · exact .inr (.inl rfl)
    · exact .inl (.inr (.inr (.inr (.inr hmem))))
  · rw [hbusy] at hbusy'
    cases hbusy'
  · exact .inr (.inr hreflects)

/-- The machine that has returned has its subscribers, and if the devices have not changed meanwhile it
shows them. -/
theorem Follows.returned (h : s.Follows p) {host : Host} {wake : Option Wake} {changed : Bool}
    {v : Service} (hbusy : s.busy = some (wake, changed))
    (hseen : changed = false → host.devices = s.devices)
    (hreturned : Returned p launch host wake s.machine v) :
    v.daemon.devicesTx.receivers ≠ 0 ∧ (changed = false → v.running →
      s.Excused ∨ v.daemon.Reflects p s.devices) := by
  generalize hmachine : s.machine = machine at hreturned
  cases hreturned with
  | started =>
      refine ⟨Daemon.start_subscribed _ _ _ _, fun hchanged _ => .inr ?_⟩
      rw [← hseen hchanged]
      exact Daemon.start_reflects _ _ _ _
  | handled hwake =>
      have hrx := h.subscribed _ hmachine
      rcases wake_cases hwake with ⟨hstopped, hsame⟩ | ⟨hrunning, hstep⟩
      · rw [hsame]
        refine ⟨hrx, fun _ hrunning => ?_⟩
        rw [hstopped] at hrunning
        cases hrunning
      · obtain ⟨hrx', hreflects⟩ := (Daemon.step_reflects hstep hrx :
          _ ∧ (_ → _ = s.devices → _))
        refine ⟨hrx', fun hchanged _ => ?_⟩
        rcases h.current _ hmachine hrunning with hexcused | hrescan | hbefore
        · exact .inl hexcused
        · rw [hbusy] at hrescan
          cases hrescan
          exact .inr (hreflects (.inr rfl) (hseen hchanged))
        · exact .inr (hreflects (.inl hbefore) (hseen hchanged))

theorem Follows.step {input : HotplugInput} (h : s.Follows p)
    (hstep : Stepped p launch s input s') : s'.Follows p := by
  cases hstep with
  | passed _ => exact h.same rfl rfl rfl id
  | ignored _ _ _ => exact h
  | reported _ _ _ events hevents => exact h.excused rfl (.inr (.inr (.inl hevents)))
  | unreported _ devices _ =>
      by_cases hlooked : s.machine.isSome || s.busy.isSome
      · exact h.excused rfl (.inl (by simp [Bool.or_assoc, hlooked]))
      · simp only [Bool.or_eq_true, not_or, Option.not_isSome_iff_eq_none] at hlooked
        refine ⟨h.subscribed, fun _ hwake => ?_, fun v hv => ?_⟩
        · rw [hlooked.2] at hwake
          cases hwake
        · rw [hlooked.1] at hv
          cases hv
  | gone _ => exact h.excused rfl (.inr (.inl rfl))
  | added hwatcher =>
      exact h.same rfl rfl rfl fun hexcused => by
        simpa [Excused, Pending, hwatcher, Watcher.isOwing] using hexcused
  | looping hwatcher =>
      exact h.same rfl rfl rfl fun hexcused => by
        simpa [Excused, Pending, hwatcher, Watcher.isOwing, Loop.start] using hexcused
  | read loop loop' _ events _ _ hloop =>
      obtain ⟨-, -, -, -, hwhy⟩ := Loop.step_cases hloop
      have hdirty : loop'.dirty := by simpa using hwhy
      exact h.excused rfl ((excused_looping rfl).mpr (.inr (.inr (.inl hdirty))))
  | waited loop loop' turn hturn hwatcher hloop => exact h.waited hturn hwatcher hloop
  | sent _ _ _ _ => exact h.excused rfl (.inr (.inr (.inr (.inr (by simp)))))
  | commanded ctrl =>
      refine h.same rfl rfl rfl fun hexcused => ?_
      rcases hexcused with hmissed | hstopped | hevents | howing | hmem
      · exact .inl hmissed
      · exact .inr (.inl hstopped)
      · exact .inr (.inr (.inl hevents))
      · exact .inr (.inr (.inr (.inl howing)))
      · exact .inr (.inr (.inr (.inr (List.mem_append_left _ hmem))))
  | booted hmachine =>
      refine ⟨h.subscribed, fun _ hwake => (by cases hwake), fun v hv => ?_⟩
      rw [hmachine] at hv
      cases hv
  | taken wake controls hbusy hrescan => exact h.taken hbusy hrescan
  | finished host wake changed v hbusy hseen hreturned =>
      obtain ⟨hrx, hreflects⟩ := h.returned hbusy hseen hreturned
      refine ⟨fun v' hv => ?_, fun _ hbusy' => (by cases hbusy'), fun v' hv hrunning => ?_⟩
      · cases hv
        exact hrx
      · cases hv
        cases changed with
        | true => exact .inl (h.disturbed wake hbusy)
        | false => exact (hreflects rfl hrunning).imp_right .inr

theorem follows_of_run {devices : List DeviceEntry} {inputs : List HotplugInput}
    (hrun : Run (step p launch) (start devices) inputs s) : s.Follows p :=
  hrun.invariant (.start devices) fun _ _ _ h _ hstep => h.step (step_cases hstep)

theorem Follows.reflects {v : Service} (h : s.Follows p) (hsettled : s.Settled)
    (hmissed : s.missed = false) (hmachine : s.machine = some v) (hrunning : v.running) :
    v.daemon.Reflects p s.devices := by
  rcases h.current v hmachine hrunning with (hmissed' | hstopped | hpending) | hrescan | hreflects
  · rw [hmissed] at hmissed'
    cases hmissed'
  · have hactive := hsettled.watching
    rw [hstopped] at hactive
    cases hactive
  · exact absurd hpending hsettled.nothing
  · exact absurd hrescan (hsettled.idle false)
  · exact hreflects

/-- Whatever comes and goes, and whenever: once nothing is outstanding, the subscribers are shown the
devices that are there and the readers are the ones wanted for them, unless a change was missed before
there was a watch. -/
theorem settled_machine_reflects_devices {devices : List DeviceEntry} {inputs : List HotplugInput}
    {v : Service} (hrun : Run (step p launch) (start devices) inputs s) (hsettled : s.Settled)
    (hmissed : s.missed = false) (hmachine : s.machine = some v) (hrunning : v.running) :
    v.daemon.Reflects p s.devices :=
  (follows_of_run hrun).reflects hsettled hmissed hmachine hrunning

/-- A remote is plugged in, and found once its burst has settled. -/
def plugIn : List HotplugInput :=
  [.boot, .finish (Bench.host "c1"), .addWatch true, .stream true,
    .kernel .create Bench.remoteHost.devices false, .kernel .attrib Bench.remoteHost.devices false,
    .turn .changed, .turn .changed, .pass DEBOUNCE, .turn .settled, .turn .resumed,
    .take (.control .rescan), .finish Bench.remoteHost]

def bench : Launch := ⟨⟨fun _ => none⟩, Bench.shutter, ⟨"/etc/alertu/config.toml"⟩, ⟨none⟩⟩

theorem settled_machine_reflects_devices_plugIn : ∃ (s : Hotplug) (v : Service),
    s.machine = some v ∧ s.devices = Bench.remoteHost.devices ∧
      v.daemon.Reflects Bench.platform s.devices := by
  obtain ⟨s, hrun, hsettled, hmissed, v, hmachine, hrunning, hdevices⟩ :
      ∃ s, Run (step Bench.platform bench) (start []) plugIn s ∧
        (s.watcher.isActive ∧ (s.events = [] ∧ s.watcher.isOwing = false ∧ .rescan ∉ s.controls) ∧
          ∀ changed, s.busy ≠ some (some (.control .rescan), changed)) ∧
        s.missed = false ∧
        ∃ v, s.machine = some v ∧ v.running ∧ s.devices = Bench.remoteHost.devices := by
    refine ⟨_, run_get (by decide +kernel), by decide +kernel, by decide +kernel, ?_⟩
    exact ⟨_, (Option.some_get (by decide +kernel)).symm, by decide +kernel, by decide +kernel⟩
  obtain ⟨hwatching, ⟨hevents, howing, hcontrols⟩, hidle⟩ := hsettled
  refine ⟨s, v, hmachine, hdevices, settled_machine_reflects_devices hrun
    ⟨hwatching, ?_, hidle⟩ hmissed hmachine hrunning⟩
  rintro (h | h | h)
  · exact h hevents
  · rw [howing] at h
    cases h
  · exact hcontrols h

end Hotplug

end AlertU
