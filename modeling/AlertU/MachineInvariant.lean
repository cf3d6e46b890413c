import AlertU.Bench
import AlertU.MachineStep
import AlertU.Runs

/-! The timers, the siren and the published state follow the guard state. The four pieces are written
by different effects; `Consistent` says what they are between two messages, and every outcome of a
step preserves it. -/

open FilePath Timing Channel Runs

namespace AlertU.Daemon

/-- The machine between two messages. -/
structure Consistent (d : Daemon) : Prop where
  deadline : d.alarmDeadline.isSome ↔ d.state = .triggered
  warning : d.nextWarning.isSome ↔ d.state = .triggered
  grace : d.graceUntil.isSome ↔ d.state = .armed ∨ d.state = .triggered
  siren : d.sound.siren.isSome → d.state = .alarm
  subscribed : d.stateTx.receivers ≠ 0
  published : d.stateTx.value = d.state

variable {p : Platform} {host : Host} {d d' : Daemon} {wake : Wake}

/-- The warning tick of a timer wake-up leaves a next warning exactly when there was one. -/
theorem warning_isSome (n : ℕ) :
    (d.warning host (p.clock.read n)).2.isSome ↔ d.nextWarning.isSome := by
  have hnext := p.clock.checkedAdd_isSome n WARNING_INTERVAL_le
  unfold warning
  cases d.nextWarning with
  | none => simp
  | some warnAt =>
      simp only
      split_ifs <;> simp [hnext]

namespace Consistent

theorem start (files : FileSystem) (cfg : Config) (cfgPath : PathBuf) (privileges : Privileges) :
    (Daemon.start p host files cfg cfgPath privileges).Consistent where
  deadline := by simp [Daemon.start]
  warning := by simp [Daemon.start]
  grace := by simp [Daemon.start]
  siren := by simp [Daemon.start, SoundPlayer.new]
  subscribed := by simp [Daemon.start, watch]
  published := by simp [Daemon.start, watch]

theorem arming (h : d.Consistent) (event : Event) (graceUntil : Instant)
    (hstate : d.state = .idle) : (d.arming p host event graceUntil).Consistent where
  deadline := by simpa [Daemon.arming, hstate] using h.deadline
  warning := by simpa [Daemon.arming, hstate] using h.warning
  grace := by simp [Daemon.arming]
  siren := by
    intro hsiren
    have := h.siren hsiren
    rw [hstate] at this
    cases this
  subscribed := by simpa [Daemon.arming] using h.subscribed
  published := Watch.send_value _ _ h.subscribed

theorem disarming (h : d.Consistent) (event : Event) : (d.disarming host event).Consistent where
  deadline := by simp [Daemon.disarming]
  warning := by simp [Daemon.disarming]
  grace := by simp [Daemon.disarming]
  siren := by simp [Daemon.disarming]
  subscribed := by simpa [Daemon.disarming] using h.subscribed
  published := Watch.send_value _ _ h.subscribed

theorem graceOver (h : d.Consistent) {d₁ : Daemon} (hgrace : GraceOver p d d₁) :
    d₁.Consistent := by
  cases hgrace with
  | unset _ => exact h
  | passed _ _ _ => exact ⟨h.deadline, h.warning, h.grace, h.siren, h.subscribed, h.published⟩

theorem intruding (h : d.Consistent) (alarmDeadline : Instant) (hstate : d.state = .armed) :
    (d.intruding p alarmDeadline).Consistent where
  deadline := by simp [Daemon.intruding]
  warning := by simp [Daemon.intruding]
  grace := by simpa [Daemon.intruding, hstate] using h.grace
  siren := by
    intro hsiren
    have := h.siren hsiren
    rw [hstate] at this
    cases this
  subscribed := by simpa [Daemon.intruding] using h.subscribed
  published := Watch.send_value _ _ h.subscribed

theorem ticking (h : d.Consistent) : (d.ticking p host).Consistent where
  deadline := h.deadline
  warning := (warning_isSome d.reads).trans h.warning
  grace := h.grace
  siren := h.siren
  subscribed := h.subscribed
  published := h.published

theorem sounding (h : d.Consistent) : (d.sounding host).Consistent where
  deadline := by simp [Daemon.sounding]
  warning := by simp [Daemon.sounding]
  grace := by simp [Daemon.sounding]
  siren _ := rfl
  subscribed := by simpa [Daemon.sounding] using h.subscribed
  published := Watch.send_value _ _ h.subscribed

/-- A step that touches none of the four pieces keeps the machine consistent. -/
theorem congr (h : d.Consistent) (hstate : d'.state = d.state)
    (hdeadline : d'.alarmDeadline = d.alarmDeadline) (hwarning : d'.nextWarning = d.nextWarning)
    (hgrace : d'.graceUntil = d.graceUntil) (hsiren : d'.sound.siren = d.sound.siren)
    (hstateTx : d'.stateTx = d.stateTx) : d'.Consistent := by
  refine ⟨?_, ?_, ?_, ?_, ?_, ?_⟩
  · rw [hdeadline, hstate, h.deadline]
  · rw [hwarning, hstate, h.warning]
  · rw [hgrace, hstate, h.grace]
  · rw [hsiren, hstate]
    exact h.siren
  · rw [hstateTx]
    exact h.subscribed
  · rw [hstateTx, hstate, h.published]

/-- Every outcome of a wake-up leaves the machine consistent. -/
theorem step (h : d.Consistent) (hstep : StepResult p host d wake d') : d'.Consistent := by
  cases hstep with
  | skipped _ _ _ => exact h
  | ignored _ event _ _ _ => exact h.congr rfl rfl rfl rfl rfl rfl
  | inGrace _ _ _ _ _ _ => exact h.congr rfl rfl rfl rfl rfl rfl
  | armed _ event graceUntil _ _ hstate _ => exact h.arming event graceUntil hstate
  | disarmed _ event _ _ _ => exact h.disarming event
  | intruded _ d₁ alarmDeadline _ hstate hgrace _ =>
      exact (h.graceOver hgrace).intruding alarmDeadline (hgrace.state.trans hstate)
  | ticked _ _ => exact h.ticking
  | sounded _ _ _ _ => exact h.ticking.sounding
  | rescanned => exact h.congr rfl rfl rfl rfl rfl rfl
  | rejected _ _ _ _ => exact h.congr rfl rfl rfl rfl rfl rfl
  | installed _ _ _ _ => exact h.congr rfl rfl rfl rfl rfl rfl
  | replied => exact h.congr rfl rfl rfl rfl rfl rfl
  | learned _ _ _ => exact h.congr rfl rfl rfl rfl rfl rfl
  | refused _ _ _ => exact h.congr rfl rfl rfl rfl rfl rfl
  | tested => exact h.congr rfl rfl rfl rfl rfl rfl

end Consistent

theorem consistent_of_run {files : FileSystem} {cfg : Config} {cfgPath : PathBuf}
    {privileges : Privileges} {inputs : List (Wake × Host)}
    (hrun : Run (step p) (start p host files cfg cfgPath privileges) inputs d) : d.Consistent :=
  hrun.invariant (.start files cfg cfgPath privileges)
    fun _ _ _ h _ hnext => h.step (step_cases hnext)

/-- At the top of the run loop, whatever was handled before: a countdown and its warning tick run
exactly in `Triggered`, a grace period is held exactly in `Armed` and `Triggered`, a siren only in
`Alarm`, and the watch channel shows the state. -/
theorem timers_siren_and_channel_follow_state {files : FileSystem} {cfg : Config}
    {cfgPath : PathBuf} {privileges : Privileges} {inputs : List (Wake × Host)}
    (hrun : Run (step p) (start p host files cfg cfgPath privileges) inputs d) :
    (d.alarmDeadline.isSome ↔ d.state = .triggered) ∧
      (d.nextWarning.isSome ↔ d.state = .triggered) ∧
      (d.graceUntil.isSome ↔ d.state = .armed ∨ d.state = .triggered) ∧
      (d.sound.siren.isSome → d.state = .alarm) ∧ d.stateTx.value = d.state :=
  have h := consistent_of_run hrun
  ⟨h.deadline, h.warning, h.grace, h.siren, h.published⟩

theorem timers_siren_and_channel_follow_state_in_alarm :
    ∃ d : Daemon, d.state = .alarm ∧ d.sound.siren.isSome ∧
      (d.alarmDeadline.isSome ↔ d.state = .triggered) ∧
      (d.nextWarning.isSome ↔ d.state = .triggered) ∧
      (d.graceUntil.isSome ↔ d.state = .armed ∨ d.state = .triggered) ∧
      (d.sound.siren.isSome → d.state = .alarm) ∧ d.stateTx.value = d.state := by
  obtain ⟨d, hrun, hstate, hsiren⟩ : ∃ d, Run (step Bench.platform)
      (Bench.boot Bench.prompt "c1") Bench.escalation d ∧ d.state = .alarm ∧ d.sound.siren.isSome :=
    ⟨_, run_get (by decide +kernel), by decide +kernel⟩
  exact ⟨d, hstate, hsiren, timers_siren_and_channel_follow_state hrun⟩

end AlertU.Daemon
