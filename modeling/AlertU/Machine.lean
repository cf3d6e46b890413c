import AlertU.Channel
import AlertU.Learn
import AlertU.Session
import AlertU.Sound
import AlertU.Transitions

/-! The interpreter of the guard state machine. One task owns all state and handles one message at a
time: an input signal, a lock-state change, a control command or a timer wake-up. A handler runs
against the answers of its `Host` and writes what it does to the outside into a log, oldest first;
it fails where the source panics. -/

open FilePath Timing Text Channel

namespace AlertU

/-- Interval between discreet warning ticks during the `Triggered` countdown. -/
def WARNING_INTERVAL : ℕ := fromSecs 1

/-- Bounds in seconds on the pairing window a client may ask for. -/
def LEARN_WINDOW : ℕ × ℕ := (1, 120)

structure Privileges where
  groupGid : Option ℕ
  deriving DecidableEq, Repr

/-- The clock, the crates and the character data that the daemon is built on. -/
structure Platform where
  clock : Clock
  toml : Toml
  evdev : Evdev
  unicode : Unicode

/-- What the host answers while one message is handled. -/
structure Host where
  loginctl : Loginctl
  disk : Disk
  programs : Programs
  devices : List DeviceEntry
  stamp : String

/-- Commands the IPC layer and the hotplug watcher send into the machine. -/
inductive Control where
  | toggle
  | arm
  | disarm
  | rescan
  | getConfig
  | setConfig (cfg : Config)
  | learnRemote (window : ℕ)
  | testSound
  deriving DecidableEq, Repr

/-- The answer to a `SetConfig`. -/
inductive Reply where
  | ok
  | error (message : String)
  deriving DecidableEq, Repr

/-- What the machine does, in the order in which it does it. -/
inductive Action where
  | handle (event : Event)
  | lockSession (id : String) (outcome : CommandOutcome)
  | unlockSession (id : String) (outcome : CommandOutcome)
  | play (command : Option Command)
  | startSiren (command : Option Command)
  | stopSiren
  | snapshot (cfg : Config) (privileges : Privileges)
  | webhook (call : Option Command)
  | startGrace (now : Instant) (secs : UInt64)
  | startCountdown (now : Instant) (secs : UInt64)
  | clearTimers
  | wake (now : Instant)
  | enter (state : GuardState)
  | resolved (auto : Bool) (active : Option String) (id : String)
  | saved (cfg : Config)
  | installed (cfg : Config)
  | replyConfig (cfg : Config)
  | replySet (reply : Reply)
  | learn (secs : ℕ) (entries : List DeviceEntry)
  | refuseLearn (message : String)
  deriving DecidableEq, Repr

/-- Owned, single-threaded state of the alarm. -/
structure Machine where
  state : GuardState
  cfg : Config
  cfgPath : PathBuf
  session : SessionCtl
  sound : SoundPlayer
  privileges : Privileges
  stateTx : Watch GuardState
  devicesTx : Watch (List InputDeviceInfo)
  readers : List Reader
  graceUntil : Option Instant
  alarmDeadline : Option Instant
  nextWarning : Option Instant

/-- The world around the machine: the files, the number of clock readings and of siren tasks so far,
and the log. -/
structure World where
  files : FileSystem
  reads : ℕ
  sirens : ℕ
  log : List Action

structure Daemon extends Machine, World

/-- Why a handler does not return to the run loop. -/
inductive Halt where
  | panicked
  | stopped
  deriving DecidableEq, Repr

/-- `Instant + Duration`. -/
def plus (t : Instant) (d : ℕ) : Except Halt Instant :=
  match t.checkedAdd d with
  | some sum => .ok sum
  | none => .error .panicked

/-- `webhook::fire`: the `curl` call it spawns, if any. -/
def fireWebhook (programs : Programs) (stamp url : String) (state : GuardState) : Option Command :=
  if url = "" ∨ !programs.which "curl" then none
  else
    some ⟨"curl", ["--silent", "--show-error", "--max-time", "5", "-X", "POST", "-H",
      "Content-Type: application/json", "-d",
      "\x7b\"event\":\"alarm\",\"state\":\"" ++ state.label ++ "\",\"timestamp\":\"" ++ stamp ++
        "\"\x7d", url]⟩

namespace Daemon

variable (p : Platform) (host : Host) (d : Daemon)

def record (action : Action) : Daemon := { d with log := d.log ++ [action] }

/-- `Instant::now()`. -/
def now : Instant × Daemon := (p.clock.read d.reads, { d with reads := d.reads + 1 })

/-- Perform a single side effect. -/
def runEffect : Effect → Except Halt Daemon
  | .lockSession => .ok (d.record (.lockSession d.session.id (d.session.run host.loginctl)))
  | .unlockSession => .ok (d.record (.unlockSession d.session.id (d.session.run host.loginctl)))
  | .playBeep => .ok (d.record (.play (d.sound.playOnce host.programs d.cfg.beepSound)))
  | .startSiren =>
      let (sound, command) := d.sound.startSiren host.programs d.sirens d.cfg.sirenSound
      .ok ({ d with sound, sirens := d.sirens + 1 }.record (.startSiren command))
  | .stopSiren => .ok ({ d with sound := d.sound.stopSiren }.record .stopSiren)
  | .snapshot => .ok (d.record (.snapshot d.cfg d.privileges))
  | .webhook =>
      .ok (d.record (.webhook (fireWebhook host.programs host.stamp d.cfg.alarmWebhookUrl .alarm)))
  | .startGrace => do
      let (now, d) := d.now p
      let graceUntil ← plus now (fromSecs d.cfg.gracePeriodSecs)
      .ok ({ d with graceUntil := some graceUntil }.record
        (.startGrace now d.cfg.gracePeriodSecs))
  | .startCountdown => do
      let (now, d) := d.now p
      let alarmDeadline ← plus now (fromSecs d.cfg.alarmDelaySecs)
      .ok ({ d with alarmDeadline := some alarmDeadline, nextWarning := some now }.record
        (.startCountdown now d.cfg.alarmDelaySecs))
  | .clearTimers =>
      .ok ({ d with graceUntil := none, alarmDeadline := none, nextWarning := none }.record
        .clearTimers)

def setState (new : GuardState) : Daemon :=
  if d.state ≠ new then
    { d with state := new, stateTx := d.stateTx.send new }.record (.enter new)
  else d

/-- Run one event through `decide` and interpret its effects, then commit the new state. -/
def apply (event : Event) : Except Halt Daemon :=
  let d := d.record (.handle event)
  match AlertU.decide d.state event with
  | none => .ok d
  | some transition => do
      let d ← transition.effects.foldlM (fun d effect => d.runEffect p host effect) d
      .ok (d.setState transition.next)

/-- (Re)spawn evdev reader tasks from the current config. -/
def spawnReaders : Daemon :=
  let resolved := Devices.resolve p.unicode d.cfg host.devices
  let remote :=
    match resolved.remote with
    | none => []
    | some path =>
        let keys := parseToggleKeys p.evdev d.cfg.toggleKeys
        if keys.isEmpty then [] else [⟨path, .remote keys⟩]
  { d with
    devicesTx := d.devicesTx.send (host.devices.map DeviceEntry.toInfo)
    readers := remote ++ resolved.watch.map fun path => ⟨path, .watch⟩ }

/-- Whether the grace period is over; the clock is read only when there is one. -/
def graceElapsed : Bool × Daemon :=
  match d.graceUntil with
  | none => (true, d)
  | some deadline =>
      let (now, d) := d.now p
      (deadline ≤ now, d)

def onInput : InputSignal → Except Halt Daemon
  | .remoteToggle => d.apply p host .toggle
  | .activity _ =>
      if d.state = .armed then
        match d.graceElapsed p with
        | (true, d) => d.apply p host .intrusion
        | (false, d) => .ok d
      else .ok d

def onLock (locked : Bool) : Except Halt Daemon :=
  if !locked ∧ d.state.isActive then d.apply p host .sessionUnlocked else .ok d

/-- `apply_config`: validate, save, and only then install the new configuration. -/
def applyConfig (cfg : Config) : Reply × Daemon :=
  match cfg.validate with
  | .error message => (.error message, d)
  | .ok () =>
      match cfg.save p.toml host.disk d.files d.cfgPath with
      | (.error message, files) => (.error message, { d with files })
      | (.ok (), files) =>
          let d := { d with files }.record (.saved cfg)
          let d := { d with cfg }.record (.installed cfg)
          let session := d.session.updateFrom host.loginctl cfg
          let d := { d with session }.record
            (.resolved cfg.sessionIsAuto host.loginctl.activeSession session.id)
          let d := { d with sound := d.sound.reconfigure host.programs cfg }
          (.ok, d.spawnReaders p host)

/-- Start a detached pairing attempt, or refuse it while the guard is active. -/
def learnRemote (window : ℕ) : Daemon :=
  if d.state ≠ .idle then
    d.record (.refuseLearn s!"cannot pair a remote while {d.state.label}; disarm first")
  else
    d.record (.learn (max LEARN_WINDOW.1 (min (window / nanosPerSec) LEARN_WINDOW.2)) host.devices)

def onControl : Control → Except Halt Daemon
  | .toggle => d.apply p host .toggle
  | .arm => d.apply p host .forceArm
  | .disarm => d.apply p host .forceDisarm
  | .rescan => .ok (d.spawnReaders p host)
  | .getConfig => .ok (d.record (.replyConfig d.cfg))
  | .setConfig cfg =>
      let (reply, d) := d.applyConfig p host cfg
      .ok (d.record (.replySet reply))
  | .learnRemote window => .ok (d.learnRemote host window)
  | .testSound => .ok (d.record (.play (d.sound.playOnce host.programs d.cfg.beepSound)))

/-- Warning ticks are periodic within `Triggered`, not a state change. -/
def warn (now : Instant) : Except Halt Daemon :=
  match d.nextWarning with
  | none => .ok d
  | some warnAt =>
      if warnAt ≤ now then do
        let d := d.record (.play (d.sound.playOnce host.programs d.cfg.warningSound))
        let next ← plus now WARNING_INTERVAL
        .ok { d with nextWarning := some next }
      else .ok d

def expire (now : Instant) : Except Halt Daemon :=
  match d.alarmDeadline with
  | none => .ok d
  | some alarmAt => if alarmAt ≤ now then d.apply p host .countdownElapsed else .ok d

def onTimer : Except Halt Daemon :=
  if d.state ≠ .triggered then .ok d
  else do
    let (now, d) := d.now p
    let d ← (d.record (.wake now)).warn host now
    d.expire p host now

/-- Earliest pending timer, if the current state has one. -/
def nextDeadline : Option Instant :=
  match d.alarmDeadline, d.nextWarning with
  | some a, some w => some (min a w)
  | some a, none => some a
  | none, w => w

end Daemon

/-- One branch of the `select!` of the run loop that has become ready. -/
inductive Wake where
  | input (signal : InputSignal)
  | inputsClosed
  | lock (locked : Bool)
  | lockClosed
  | control (ctrl : Control)
  | controlsClosed
  | timer
  deriving DecidableEq, Repr

namespace Daemon

/-- One iteration of the run loop. -/
def step (p : Platform) (d : Daemon) : Wake × Host → Except Halt Daemon
  | (.input signal, host) => d.onInput p host signal
  | (.inputsClosed, _) => .error .stopped
  | (.lock locked, host) => d.onLock p host locked
  | (.lockClosed, _) => .ok d
  | (.control ctrl, host) => d.onControl p host ctrl
  | (.controlsClosed, _) => .error .stopped
  | (.timer, host) => d.onTimer p host

/-- `Machine::new` on fresh channels, then the reader start-up of `Machine::run`. The receiver of
the state channel is the one the IPC server keeps. -/
def start (p : Platform) (host : Host) (files : FileSystem) (cfg : Config) (cfgPath : PathBuf)
    (privileges : Privileges) : Daemon :=
  let session := SessionCtl.new host.loginctl cfg
  let d : Daemon :=
    { state := .idle
      cfg, cfgPath, session, privileges, files
      sound := SoundPlayer.new host.programs cfg
      stateTx := watch .idle
      devicesTx := watch []
      readers := []
      graceUntil := none
      alarmDeadline := none
      nextWarning := none
      reads := 0
      sirens := 0
      log := [.resolved cfg.sessionIsAuto host.loginctl.activeSession session.id] }
  d.spawnReaders p host

/-- The start-up of `main`: load and validate the configuration, then start the machine. -/
def main (p : Platform) (host : Host) (files : FileSystem) (cfgPath : PathBuf)
    (privileges : Privileges) : Except String Daemon := do
  let cfg ← Config.load p.toml host.disk files cfgPath
  cfg.validate
  .ok (start p host files cfg cfgPath privileges)

end Daemon

end AlertU
