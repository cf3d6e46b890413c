import AlertU.Machine

/-! What one step of the machine can do. Each transition of the table has an equation for `apply`;
`StepResult` lists every way in which a wake-up can end, and `step_cases` is the inversion of `step`
that the invariants are derived from. -/

open FilePath Timing Text Channel

namespace AlertU.Daemon

variable (p : Platform) (host : Host) (d : Daemon)

/-! ### The results of the transitions -/

/-- The machine after an arming event. -/
def arming (event : Event) (graceUntil : Instant) : Daemon :=
  { d with
    state := .armed
    graceUntil := some graceUntil
    stateTx := d.stateTx.send .armed
    reads := d.reads + 1
    log := d.log ++ [.handle event, .lockSession d.session.id (d.session.run host.loginctl),
      .play (d.sound.playOnce host.programs d.cfg.beepSound),
      .startGrace (p.clock.read d.reads) d.cfg.gracePeriodSecs, .enter .armed] }

/-- The unlock command that a disarming event issues: none when the session is unlocked already. -/
def unlockActions (event : Event) : List Action :=
  if event = .sessionUnlocked then []
  else [.unlockSession d.session.id (d.session.run host.loginctl)]

/-- The machine after a disarming event. -/
def disarming (event : Event) : Daemon :=
  { d with
    state := .idle
    graceUntil := none
    alarmDeadline := none
    nextWarning := none
    sound := d.sound.stopSiren
    stateTx := d.stateTx.send .idle
    log := d.log ++ .handle event :: d.unlockActions host event ++
      [.stopSiren, .clearTimers, .play (d.sound.playOnce host.programs d.cfg.beepSound),
        .enter .idle] }

/-- The machine after an intrusion. -/
def intruding (alarmDeadline : Instant) : Daemon :=
  { d with
    state := .triggered
    alarmDeadline := some alarmDeadline
    nextWarning := some (p.clock.read d.reads)
    stateTx := d.stateTx.send .triggered
    reads := d.reads + 1
    log := d.log ++ [.handle .intrusion,
      .startCountdown (p.clock.read d.reads) d.cfg.alarmDelaySecs, .enter .triggered] }

/-- The machine after the countdown has elapsed. -/
def sounding : Daemon :=
  { d with
    state := .alarm
    graceUntil := none
    alarmDeadline := none
    nextWarning := none
    sound := (d.sound.startSiren host.programs d.sirens d.cfg.sirenSound).1
    stateTx := d.stateTx.send .alarm
    sirens := d.sirens + 1
    log := d.log ++ [.handle .countdownElapsed, .clearTimers,
      .startSiren (d.sound.startSiren host.programs d.sirens d.cfg.sirenSound).2,
      .snapshot d.cfg d.privileges,
      .webhook (fireWebhook host.programs host.stamp d.cfg.alarmWebhookUrl .alarm),
      .enter .alarm] }

/-- The warning tick of a timer wake-up at `now`: what it plays and when the next one is due. -/
def warning (now : Instant) : List Action × Option Instant :=
  match d.nextWarning with
  | none => ([], none)
  | some warnAt =>
      if warnAt ≤ now then
        ([.play (d.sound.playOnce host.programs d.cfg.warningSound)],
          now.checkedAdd WARNING_INTERVAL)
      else ([], some warnAt)

/-- The machine after the warning tick of a timer wake-up in `Triggered`. -/
def ticking : Daemon :=
  { d with
    nextWarning := (d.warning host (p.clock.read d.reads)).2
    reads := d.reads + 1
    log := d.log ++ .wake (p.clock.read d.reads) :: (d.warning host (p.clock.read d.reads)).1 }

/-- The machine after a configuration that was not accepted. -/
def rejecting (message : String) (files : FileSystem) : Daemon :=
  { d with files, log := d.log ++ [.replySet (.error message)] }

/-- The machine after a configuration that was accepted. -/
def installing (cfg : Config) (files : FileSystem) : Daemon :=
  let session := d.session.updateFrom host.loginctl cfg
  { d with
    cfg, files, session
    sound := d.sound.reconfigure host.programs cfg
    log := d.log ++ [.saved cfg, .installed cfg,
      .resolved cfg.sessionIsAuto host.loginctl.activeSession session.id, .replySet .ok]
    : Daemon }.spawnReaders p host

variable {p host d}

theorem plus_eq_ok {t sum : Instant} {delay : ℕ} (h : plus t delay = .ok sum) :
    sum.nanos = t.nanos + delay := by
  unfold plus at h
  split at h
  · rename_i hadd
    cases h
    exact Instant.checkedAdd_eq_some.mp hadd
  · cases h

theorem WARNING_INTERVAL_le : WARNING_INTERVAL ≤ 2 ^ 62 * nanosPerSec := by
  simp [WARNING_INTERVAL, fromSecs, nanosPerSec]

/-! ### The transitions of `apply` -/

@[simp] theorem ok_bind {ε α β : Type} (a : α) (f : α → Except ε β) :
    (Except.ok a >>= f) = f a := rfl

@[simp] theorem pure_eq_ok {ε α : Type} (a : α) : (pure a : Except ε α) = .ok a := rfl

theorem record_reads (action : Action) : (d.record action).reads = d.reads := rfl

theorem record_cfg (action : Action) : (d.record action).cfg = d.cfg := rfl

theorem apply_ignored {event : Event} (h : AlertU.decide d.state event = none) :
    d.apply p host event = .ok (d.record (.handle event)) := by
  rw [apply]
  simp only [record, h]

theorem apply_eq {event : Event} {tr : Transition}
    (h : AlertU.decide d.state event = some tr) :
    d.apply p host event = (tr.effects.foldlM (fun d effect => d.runEffect p host effect)
      (d.record (.handle event))) >>= fun d => .ok (d.setState tr.next) := by
  have hstate : (d.record (.handle event)).state = d.state := rfl
  rw [apply]
  simp only [hstate, h]

/-! The effects that cannot fail. -/

theorem runEffect_lockSession : d.runEffect p host .lockSession =
    .ok (d.record (.lockSession d.session.id (d.session.run host.loginctl))) := rfl

theorem runEffect_unlockSession : d.runEffect p host .unlockSession =
    .ok (d.record (.unlockSession d.session.id (d.session.run host.loginctl))) := rfl

theorem runEffect_playBeep : d.runEffect p host .playBeep =
    .ok (d.record (.play (d.sound.playOnce host.programs d.cfg.beepSound))) := rfl

theorem runEffect_startSiren : d.runEffect p host .startSiren =
    .ok ({ d with
      sound := (d.sound.startSiren host.programs d.sirens d.cfg.sirenSound).1
      sirens := d.sirens + 1 }.record
        (.startSiren (d.sound.startSiren host.programs d.sirens d.cfg.sirenSound).2)) := rfl

theorem runEffect_stopSiren : d.runEffect p host .stopSiren =
    .ok ({ d with sound := d.sound.stopSiren }.record .stopSiren) := rfl

theorem runEffect_snapshot : d.runEffect p host .snapshot =
    .ok (d.record (.snapshot d.cfg d.privileges)) := rfl

theorem runEffect_webhook : d.runEffect p host .webhook = .ok (d.record
    (.webhook (fireWebhook host.programs host.stamp d.cfg.alarmWebhookUrl .alarm))) := rfl

theorem runEffect_clearTimers : d.runEffect p host .clearTimers =
    .ok ({ d with graceUntil := none, alarmDeadline := none, nextWarning := none }.record
      .clearTimers) := rfl

/-! The effects that add a delay to the clock reading. -/

theorem runEffect_startGrace :
    d.runEffect p host .startGrace =
      (plus (p.clock.read d.reads) (fromSecs d.cfg.gracePeriodSecs)).map fun graceUntil =>
        { d with
          graceUntil := some graceUntil
          reads := d.reads + 1
          log := d.log ++ [.startGrace (p.clock.read d.reads) d.cfg.gracePeriodSecs] } := by
  rw [runEffect]
  simp only [now]
  cases plus (p.clock.read d.reads) (fromSecs d.cfg.gracePeriodSecs) <;> rfl

theorem runEffect_startCountdown :
    d.runEffect p host .startCountdown =
      (plus (p.clock.read d.reads) (fromSecs d.cfg.alarmDelaySecs)).map fun alarmDeadline =>
        { d with
          alarmDeadline := some alarmDeadline
          nextWarning := some (p.clock.read d.reads)
          reads := d.reads + 1
          log := d.log ++ [.startCountdown (p.clock.read d.reads) d.cfg.alarmDelaySecs] } := by
  rw [runEffect]
  simp only [now]
  cases plus (p.clock.read d.reads) (fromSecs d.cfg.alarmDelaySecs) <;> rfl

theorem apply_arm {event : Event} (hstate : d.state = .idle)
    (hevent : event = .toggle ∨ event = .forceArm) :
    d.apply p host event =
      (plus (p.clock.read d.reads) (fromSecs d.cfg.gracePeriodSecs)).map
        (d.arming p host event) := by
  have hdecide : AlertU.decide d.state event =
      some ⟨.armed, [.lockSession, .playBeep, .startGrace]⟩ := by
    rcases hevent with rfl | rfl <;> rw [hstate] <;> rfl
  rw [apply_eq hdecide, List.foldlM_cons, runEffect_lockSession, ok_bind, List.foldlM_cons,
    runEffect_playBeep, ok_bind, List.foldlM_cons, runEffect_startGrace]
  simp only [record_reads, record_cfg]
  cases plus (p.clock.read d.reads) (fromSecs d.cfg.gracePeriodSecs) with
  | error e => rfl
  | ok graceUntil =>
      simp [Except.map, record, setState, arming, hstate]

theorem apply_disarm {event : Event} (hstate : d.state ≠ .idle) (hevent : event.isDisarm) :
    d.apply p host event = .ok (d.disarming host event) := by
  have hcases : event = .toggle ∨ event = .forceDisarm ∨ event = .sessionUnlocked := by
    simpa [Event.isDisarm] using hevent
  have hdecide : AlertU.decide d.state event = some ⟨.idle,
      (if event = .sessionUnlocked then [] else [.unlockSession]) ++
        [.stopSiren, .clearTimers, .playBeep]⟩ := by
    rcases hcases with rfl | rfl | rfl <;> cases hs : d.state <;>
      first | exact absurd hs hstate | rfl
  rw [apply_eq hdecide]
  split_ifs with hunlocked
  · simp only [List.nil_append, List.foldlM_cons, List.foldlM_nil, runEffect_stopSiren,
      runEffect_clearTimers, runEffect_playBeep, ok_bind, pure_eq_ok]
    simp [setState, record, hstate, disarming, unlockActions, hunlocked]
  · simp only [List.cons_append, List.nil_append, List.foldlM_cons, List.foldlM_nil,
      runEffect_unlockSession, runEffect_stopSiren, runEffect_clearTimers, runEffect_playBeep,
      ok_bind, pure_eq_ok]
    simp [setState, record, hstate, disarming, unlockActions, hunlocked]

theorem apply_intrusion (hstate : d.state = .armed) :
    d.apply p host .intrusion =
      (plus (p.clock.read d.reads) (fromSecs d.cfg.alarmDelaySecs)).map (d.intruding p) := by
  have hdecide : AlertU.decide d.state .intrusion = some ⟨.triggered, [.startCountdown]⟩ := by
    rw [hstate]
    rfl
  rw [apply_eq hdecide, List.foldlM_cons, runEffect_startCountdown]
  simp only [record_reads, record_cfg]
  cases plus (p.clock.read d.reads) (fromSecs d.cfg.alarmDelaySecs) with
  | error e => rfl
  | ok alarmDeadline => simp [Except.map, setState, record, intruding, hstate]

theorem apply_countdownElapsed (hstate : d.state = .triggered) :
    d.apply p host .countdownElapsed = .ok (d.sounding host) := by
  have hdecide : AlertU.decide d.state .countdownElapsed =
      some ⟨.alarm, [.clearTimers, .startSiren, .snapshot, .webhook]⟩ := by
    rw [hstate]
    rfl
  rw [apply_eq hdecide]
  simp only [List.foldlM_cons, List.foldlM_nil, runEffect_clearTimers, runEffect_startSiren,
    runEffect_snapshot, runEffect_webhook, ok_bind, pure_eq_ok]
  simp [setState, record, hstate, sounding]

/-! ### Readers, configurations and timers -/

section SpawnReaders

@[simp] theorem spawnReaders_state : (d.spawnReaders p host).state = d.state := rfl

@[simp] theorem spawnReaders_cfg : (d.spawnReaders p host).cfg = d.cfg := rfl

@[simp] theorem spawnReaders_session : (d.spawnReaders p host).session = d.session := rfl

@[simp] theorem spawnReaders_sound : (d.spawnReaders p host).sound = d.sound := rfl

@[simp] theorem spawnReaders_stateTx : (d.spawnReaders p host).stateTx = d.stateTx := rfl

@[simp] theorem spawnReaders_graceUntil :
    (d.spawnReaders p host).graceUntil = d.graceUntil := rfl

@[simp] theorem spawnReaders_alarmDeadline :
    (d.spawnReaders p host).alarmDeadline = d.alarmDeadline := rfl

@[simp] theorem spawnReaders_nextWarning :
    (d.spawnReaders p host).nextWarning = d.nextWarning := rfl

@[simp] theorem spawnReaders_log : (d.spawnReaders p host).log = d.log := rfl

end SpawnReaders

/-- `SetConfig` either replies with the first error and keeps the old configuration, or installs
the new one once it is on disk. -/
theorem setConfig_eq (cfg : Config) :
    d.onControl p host (.setConfig cfg) = .ok
      (match cfg.validate with
        | .error message => d.rejecting message d.files
        | .ok () =>
            match cfg.save p.toml host.disk d.files d.cfgPath with
            | (.error message, files) => d.rejecting message files
            | (.ok (), files) => d.installing p host cfg files) := by
  rw [onControl, applyConfig]
  cases cfg.validate with
  | error message => rfl
  | ok _ =>
      rcases cfg.save p.toml host.disk d.files d.cfgPath with ⟨saved, files⟩
      cases saved <;> simp [record, installing, rejecting, spawnReaders]

theorem warn_eq (n : ℕ) :
    d.warn host (p.clock.read n) = .ok
      { d with
        nextWarning := (d.warning host (p.clock.read n)).2
        log := d.log ++ (d.warning host (p.clock.read n)).1 } := by
  obtain ⟨next, hnext⟩ := Option.isSome_iff_exists.mp
    (p.clock.checkedAdd_isSome n WARNING_INTERVAL_le)
  have hplus : plus (p.clock.read n) WARNING_INTERVAL = .ok next := by
    rw [plus, hnext]
  rw [warn, warning, hplus, hnext]
  cases hwarn : d.nextWarning with
  | none => simp [← hwarn]
  | some warnAt =>
      by_cases hdue : warnAt ≤ p.clock.read n
      · simp [hdue, record]
      · simp [hdue, ← hwarn]

theorem warning_fst (host : Host) (d : Daemon) (now : Instant) :
    (d.warning host now).1 = [] ∨ ∃ command, (d.warning host now).1 = [.play command] := by
  unfold warning
  split
  · exact .inl rfl
  · split_ifs
    · exact .inr ⟨_, rfl⟩
    · exact .inl rfl

/-- A timer wake-up in `Triggered`: a warning tick, then the alarm if its deadline has come. -/
theorem onTimer_eq (hstate : d.state = .triggered) :
    d.onTimer p host = .ok
      (if d.alarmDeadline.any (· ≤ p.clock.read d.reads) then (d.ticking p host).sounding host
        else d.ticking p host) := by
  have hwarned : ({ d with reads := d.reads + 1 }.record (.wake (p.clock.read d.reads))).warn host
      (p.clock.read d.reads) = .ok (d.ticking p host) := by
    rw [warn_eq]
    simp [ticking, record, warning]
  have hticking : (d.ticking p host).state = .triggered := hstate
  have hdeadline : (d.ticking p host).alarmDeadline = d.alarmDeadline := rfl
  rw [onTimer, if_neg (not_not_intro hstate)]
  simp only [now]
  rw [hwarned, ok_bind, expire, hdeadline]
  cases d.alarmDeadline with
  | none => rfl
  | some alarmAt =>
      simp only [apply_countdownElapsed hticking, Option.any_some, decide_eq_true_eq]
      split_ifs <;> rfl

/-! ### The inversion of `step` -/

/-- The event that a wake-up is turned into, if its guards let it pass. -/
def eventOf : Wake → Option Event
  | .input .remoteToggle | .control .toggle => some .toggle
  | .input (.activity _) => some .intrusion
  | .lock false => some .sessionUnlocked
  | .control .arm => some .forceArm
  | .control .disarm => some .forceDisarm
  | _ => none

/-- What `graceElapsed` leaves behind, and when it lets an intrusion pass. -/
inductive GraceOver (p : Platform) (d : Daemon) : Daemon → Prop where
  | unset (hgrace : d.graceUntil = none) : GraceOver p d d
  | passed (graceUntil : Instant) (hgrace : d.graceUntil = some graceUntil)
      (hpassed : graceUntil ≤ p.clock.read d.reads) :
      GraceOver p d { d with reads := d.reads + 1 }

/-- The outcomes of a wake-up that is handled without a halt. -/
inductive StepResult (p : Platform) (host : Host) (d : Daemon) : Wake → Daemon → Prop where
  | skipped (wake : Wake) (hskip : wake = .timer → d.state ≠ .triggered)
      (hdisarm : ∀ event, eventOf wake = some event → event.isDisarm → d.state = .idle) :
      StepResult p host d wake d
  | ignored (wake : Wake) (event : Event) (hwake : eventOf wake = some event)
      (hevent : event ≠ .intrusion) (hignored : AlertU.decide d.state event = none) :
      StepResult p host d wake (d.record (.handle event))
  | inGrace (wake : Wake) (graceUntil : Instant) (hwake : eventOf wake = some .intrusion)
      (hstate : d.state = .armed) (hgrace : d.graceUntil = some graceUntil)
      (hearly : p.clock.read d.reads < graceUntil) :
      StepResult p host d wake { d with reads := d.reads + 1 }
  | armed (wake : Wake) (event : Event) (graceUntil : Instant) (hwake : eventOf wake = some event)
      (hevent : event = .toggle ∨ event = .forceArm) (hstate : d.state = .idle)
      (hplus : plus (p.clock.read d.reads) (fromSecs d.cfg.gracePeriodSecs) = .ok graceUntil) :
      StepResult p host d wake (d.arming p host event graceUntil)
  | disarmed (wake : Wake) (event : Event) (hwake : eventOf wake = some event)
      (hevent : event.isDisarm) (hstate : d.state ≠ .idle) :
      StepResult p host d wake (d.disarming host event)
  | intruded (wake : Wake) (d₁ : Daemon) (alarmDeadline : Instant)
      (hwake : eventOf wake = some .intrusion) (hstate : d.state = .armed)
      (hgrace : GraceOver p d d₁)
      (hplus : plus (p.clock.read d₁.reads) (fromSecs d₁.cfg.alarmDelaySecs) =
        .ok alarmDeadline) :
      StepResult p host d wake (d₁.intruding p alarmDeadline)
  | ticked (hstate : d.state = .triggered)
      (hearly : ∀ alarmAt, d.alarmDeadline = some alarmAt → p.clock.read d.reads < alarmAt) :
      StepResult p host d .timer (d.ticking p host)
  | sounded (alarmAt : Instant) (hstate : d.state = .triggered)
      (hdeadline : d.alarmDeadline = some alarmAt) (hdue : alarmAt ≤ p.clock.read d.reads) :
      StepResult p host d .timer ((d.ticking p host).sounding host)
  | rescanned : StepResult p host d (.control .rescan) (d.spawnReaders p host)
  | rejected (cfg : Config) (message : String) (files : FileSystem)
      (hwhy : (cfg.validate = .error message ∧ files = d.files) ∨ (cfg.validate = .ok () ∧
        cfg.save p.toml host.disk d.files d.cfgPath = (.error message, files))) :
      StepResult p host d (.control (.setConfig cfg)) (d.rejecting message files)
  | installed (cfg : Config) (files : FileSystem) (hvalid : cfg.validate = .ok ())
      (hsaved : cfg.save p.toml host.disk d.files d.cfgPath = (.ok (), files)) :
      StepResult p host d (.control (.setConfig cfg)) (d.installing p host cfg files)
  | replied : StepResult p host d (.control .getConfig) (d.record (.replyConfig d.cfg))
  | learned (window secs : ℕ) (hstate : d.state = .idle) :
      StepResult p host d (.control (.learnRemote window)) (d.record (.learn secs host.devices))
  | refused (window : ℕ) (message : String) (hstate : d.state ≠ .idle) :
      StepResult p host d (.control (.learnRemote window)) (d.record (.refuseLearn message))
  | tested : StepResult p host d (.control .testSound)
      (d.record (.play (d.sound.playOnce host.programs d.cfg.beepSound)))

theorem map_eq_ok {α β : Type} {f : α → β} {r : Except Halt α} {b : β}
    (h : r.map f = .ok b) : ∃ a, r = .ok a ∧ b = f a := by
  cases r with
  | error e => cases h
  | ok a =>
      cases h
      exact ⟨a, rfl, rfl⟩

/-- `apply` of an event that a wake-up delivers as such. -/
theorem apply_cases {d' : Daemon} {wake : Wake} {event : Event} (hwake : eventOf wake = some event)
    (hevent : event ≠ .intrusion) (hcountdown : event ≠ .countdownElapsed)
    (h : d.apply p host event = .ok d') : StepResult p host d wake d' := by
  cases hdecide : AlertU.decide d.state event with
  | none =>
      rw [apply_ignored hdecide] at h
      cases h
      exact .ignored wake event hwake hevent hdecide
  | some tr =>
      rcases decide_cases hdecide with ⟨hstate, harm, -⟩ | ⟨hstate, hdisarm, -⟩ |
        ⟨hstate, rfl, -⟩ | ⟨-, rfl, -⟩ | ⟨-, rfl, -⟩
      · rw [apply_arm hstate harm] at h
        obtain ⟨graceUntil, hplus, rfl⟩ := map_eq_ok h
        exact .armed wake event graceUntil hwake harm hstate hplus
      · have hdisarm : event.isDisarm := by
          rcases hdisarm with rfl | rfl <;> rfl
        rw [apply_disarm hstate hdisarm] at h
        cases h
        exact .disarmed wake event hwake hdisarm hstate
      · rw [apply_disarm hstate rfl] at h
        cases h
        exact .disarmed wake .sessionUnlocked hwake rfl hstate
      · exact absurd rfl hevent
      · exact absurd rfl hcountdown

theorem graceElapsed_cases : d.graceElapsed p = (true, (d.graceElapsed p).2) ∧
      GraceOver p d (d.graceElapsed p).2 ∨
    ∃ graceUntil, d.graceUntil = some graceUntil ∧ p.clock.read d.reads < graceUntil ∧
      d.graceElapsed p = (false, { d with reads := d.reads + 1 }) := by
  rw [graceElapsed]
  cases hgrace : d.graceUntil with
  | none => exact .inl ⟨rfl, .unset hgrace⟩
  | some graceUntil =>
      simp only [now]
      by_cases hpassed : graceUntil ≤ p.clock.read d.reads
      · exact .inl ⟨by simp [hpassed], .passed graceUntil hgrace hpassed⟩
      · exact .inr ⟨graceUntil, rfl, not_le.mp hpassed, by simp [hpassed]⟩

theorem GraceOver.state {d₁ : Daemon} (h : GraceOver p d d₁) : d₁.state = d.state := by
  cases h <;> rfl

theorem onInput_cases {d' : Daemon} {signal : InputSignal} (h : d.onInput p host signal = .ok d') :
    StepResult p host d (.input signal) d' := by
  cases signal with
  | remoteToggle => exact apply_cases rfl (by simp) (by simp) h
  | activity summary =>
      rw [onInput] at h
      split_ifs at h with hstate
      · rcases graceElapsed_cases (p := p) (d := d) with ⟨helapsed, hover⟩ |
          ⟨graceUntil, hgrace, hearly, helapsed⟩
        · rw [helapsed] at h
          simp only [apply_intrusion (hover.state.trans hstate)] at h
          obtain ⟨alarmDeadline, hplus, rfl⟩ := map_eq_ok h
          exact .intruded _ _ alarmDeadline rfl hstate hover hplus
        · rw [helapsed] at h
          cases h
          exact .inGrace _ graceUntil rfl hstate hgrace hearly
      · cases h
        exact .skipped _ nofun (by simp [eventOf, Event.isDisarm])

theorem onLock_cases {d' : Daemon} {locked : Bool} (h : d.onLock p host locked = .ok d') :
    StepResult p host d (.lock locked) d' := by
  rw [onLock] at h
  split_ifs at h with hguard
  · have hlocked : locked = false := by simpa using hguard.1
    subst hlocked
    exact apply_cases rfl (by simp) (by simp) h
  · cases h
    refine .skipped _ nofun fun event hevent _ => ?_
    cases locked with
    | true => cases hevent
    | false => simpa [GuardState.isActive] using hguard

theorem onControl_cases {d' : Daemon} {ctrl : Control} (h : d.onControl p host ctrl = .ok d') :
    StepResult p host d (.control ctrl) d' := by
  cases ctrl with
  | toggle => exact apply_cases rfl (by simp) (by simp) h
  | arm => exact apply_cases rfl (by simp) (by simp) h
  | disarm => exact apply_cases rfl (by simp) (by simp) h
  | rescan =>
      cases h
      exact .rescanned
  | getConfig =>
      cases h
      exact .replied
  | setConfig cfg =>
      rw [setConfig_eq] at h
      cases hvalid : cfg.validate with
      | error message =>
          rw [hvalid] at h
          cases h
          exact .rejected cfg message d.files (.inl ⟨hvalid, rfl⟩)
      | ok _ =>
          rw [hvalid] at h
          rcases hsaved : cfg.save p.toml host.disk d.files d.cfgPath with ⟨saved, files⟩
          rw [hsaved] at h
          cases saved with
          | error message =>
              cases h
              exact .rejected cfg message files (.inr ⟨hvalid, hsaved⟩)
          | ok _ =>
              cases h
              exact .installed cfg files hvalid hsaved
  | learnRemote window =>
      cases h
      unfold learnRemote
      split_ifs with hstate
      · exact .refused window _ hstate
      · exact .learned window _ (not_not.mp hstate)
  | testSound =>
      cases h
      exact .tested

theorem onTimer_cases {d' : Daemon} (h : d.onTimer p host = .ok d') :
    StepResult p host d .timer d' := by
  by_cases hstate : d.state = .triggered
  · rw [onTimer_eq hstate] at h
    split_ifs at h with hdue
    · obtain ⟨alarmAt, hdeadline, hle⟩ := (Option.any_eq_true _ _).mp hdue
      cases h
      exact .sounded alarmAt hstate hdeadline (by simpa using hle)
    · cases h
      refine .ticked hstate fun alarmAt hdeadline => ?_
      simpa [hdeadline] using hdue
  · rw [onTimer, if_pos hstate] at h
    cases h
    exact .skipped _ (fun _ => hstate) nofun

/-- Everything that one iteration of the run loop can do. -/
theorem step_cases {d' : Daemon} {wake : Wake} (h : d.step p (wake, host) = .ok d') :
    StepResult p host d wake d' := by
  cases wake with
  | input signal => exact onInput_cases h
  | inputsClosed => cases h
  | lock locked => exact onLock_cases h
  | lockClosed =>
      cases h
      exact .skipped _ nofun nofun
  | control ctrl => exact onControl_cases h
  | controlsClosed => cases h
  | timer => exact onTimer_cases h

/-- A step sends at most new values over the two channels. -/
theorem StepResult.becomes {d' : Daemon} {wake : Wake} (hstep : StepResult p host d wake d') :
    d.stateTx.Becomes d'.stateTx ∧ d.devicesTx.Becomes d'.devicesTx := by
  have hstate := d.stateTx.becomes_self
  have hdevices := d.devicesTx.becomes_self
  cases hstep with
  | skipped _ _ _ => exact ⟨hstate, hdevices⟩
  | ignored _ _ _ _ _ => exact ⟨hstate, hdevices⟩
  | inGrace _ _ _ _ _ _ => exact ⟨hstate, hdevices⟩
  | armed _ _ _ _ _ _ _ => exact ⟨d.stateTx.becomes_send _, hdevices⟩
  | disarmed _ _ _ _ _ => exact ⟨d.stateTx.becomes_send _, hdevices⟩
  | intruded _ _ _ _ _ hgrace _ => cases hgrace <;> exact ⟨d.stateTx.becomes_send _, hdevices⟩
  | ticked _ _ => exact ⟨hstate, hdevices⟩
  | sounded _ _ _ _ => exact ⟨d.stateTx.becomes_send _, hdevices⟩
  | rescanned => exact ⟨hstate, d.devicesTx.becomes_send _⟩
  | rejected _ _ _ _ => exact ⟨hstate, hdevices⟩
  | installed _ _ _ _ => exact ⟨hstate, d.devicesTx.becomes_send _⟩
  | replied => exact ⟨hstate, hdevices⟩
  | learned _ _ _ => exact ⟨hstate, hdevices⟩
  | refused _ _ _ => exact ⟨hstate, hdevices⟩
  | tested => exact ⟨hstate, hdevices⟩

/-- A daemon has loaded a valid configuration. -/
theorem main_ok_iff {files : FileSystem} {cfgPath : PathBuf} {privileges : Privileges} :
    main p host files cfgPath privileges = .ok d ↔
    ∃ cfg, Config.load p.toml host.disk files cfgPath = .ok cfg ∧ cfg.validate = .ok () ∧
      d = start p host files cfg cfgPath privileges := by
  unfold main
  cases hload : Config.load p.toml host.disk files cfgPath with
  | error message => exact iff_of_false (fun h => by cases h) fun ⟨_, h, _⟩ => by cases h
  | ok cfg =>
      rw [ok_bind]
      cases hvalid : cfg.validate with
      | error message =>
          refine iff_of_false (fun h => by cases h) ?_
          rintro ⟨cfg', hcfg, hvalid', -⟩
          cases hcfg
          cases hvalid.symm.trans hvalid'
      | ok _ =>
          constructor
          · intro h
            cases h
            exact ⟨cfg, rfl, hvalid, rfl⟩
          · rintro ⟨cfg', hcfg, -, rfl⟩
            cases hcfg
            rfl

end AlertU.Daemon
